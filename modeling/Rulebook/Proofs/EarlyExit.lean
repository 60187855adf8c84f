import Rulebook.Proofs.Upkeep

/-!
# The early exits of a setup

The token of a setup enters its code by one door: an early exit asks the
context for it and raises the flag in the same step. No scope binds the key
under which the context holds it, so what the exit throws to is always the
token of the setup. All the rest of the run only moves forms about, and keeps
the token confined as the file on confinement says. So a setup with an exit has
its token behind one catch.

A setup without an exit does not mention its token at all. It never asked for
it, so the run would have been the same with another binding in its place, and
without the token there is nothing in the run that mentions it.
-/

namespace Rulebook

/-! ## Contexts that hold the token -/

/-- A context that holds the token under its own key and nowhere else. -/
structure Frame.Confines (frame : Frame) (number : UInt64) : Prop where
  quit : frame.find? .quit = some (Setup.token number)
  others : ∀ {key : Key} {value : Form}, key ≠ .quit → frame.find? key = some value →
    Setup.tokenName number ∉ value.symbols

theorem Frame.Confines.bind {frame : Frame} {number : UInt64} (h : frame.Confines number)
    {key : Key} (hkey : key ≠ .quit) {name : String} (hname : name ≠ Setup.tokenName number) :
    (frame.bind key (.symbol name)).Confines number where
  quit := by
    rw [find?_bind, if_neg (Ne.symm hkey)]
    exact h.quit
  others := by
    intro sought value hsought hfind
    rw [find?_bind] at hfind
    split at hfind
    · cases hfind
      simpa [Form.symbols] using Ne.symm hname
    · exact h.others hsought hfind

theorem Setup.confines_bind_token {frame : Frame} {number : UInt64}
    (h : ∀ binding ∈ frame.bindings, tokenName number ∉ binding.2.symbols) :
    (frame.bind .quit (token number)).Confines number where
  quit := by rw [Frame.find?_bind, if_pos rfl]
  others := by
    intro key value hkey hfind
    rw [Frame.find?_bind, if_neg hkey] at hfind
    obtain ⟨inner, outer, hbindings, -⟩ := List.lookup_eq_some_iff.mp hfind
    exact h (key, value) (by simp [hbindings])

/-! ## Every result keeps the token confined -/

namespace Form

end Form

namespace Settings

variable {settings : Settings} {number : UInt64} {room depth : Nat} {frame : Frame}

end Settings

/-! ## Without an exit it matters nothing what the token is -/

/-- Contexts that bind every key alike but that of early exits, to which both bind
something. -/
structure Frame.AgreesBesides (frame other : Frame) : Prop where
  quit : ∃ token, frame.deduce .quit = .ok token
  quit' : ∃ token, other.deduce .quit = .ok token
  others : ∀ {key : Key}, key ≠ .quit → frame.find? key = other.find? key

theorem Frame.AgreesBesides.bind {frame other : Frame} (h : frame.AgreesBesides other) {key : Key}
    (hkey : key ≠ .quit) (value : Form) :
    (frame.bind key value).AgreesBesides (other.bind key value) where
  quit := by
    rw [deduce, find?_bind, if_neg (Ne.symm hkey)]
    exact h.quit
  quit' := by
    rw [deduce, find?_bind, if_neg (Ne.symm hkey)]
    exact h.quit'
  others := by
    intro sought hsought
    rw [find?_bind, find?_bind, h.others hsought]

namespace Pairing

end Pairing

namespace Setup

section

variable {registry : Registry} {host : Host} {options : SetupOptions} {name : Form}
  {body : List Form} {number : UInt64} (hnative : registry.Native)
  (hname : tokenName number ∉ name.symbols)
  (hbody : ∀ form ∈ body, tokenName number ∉ form.symbols)

include hnative hname hbody

/-- The forms that are expanded hold no token that the setup itself does not. -/
theorem not_mem_rooted (rootRule : Option String) :
    ∀ form ∈ rooted registry rootRule name body, tokenName number ∉ form.symbols := by
  have hrooted : ∀ form ∈ rooted registry rootRule name body,
      form.Names (· ≠ tokenName number) := by
    refine names_rooted (fun id hknown => ?_) (Form.names_ne_iff.mpr hname)
      (fun form hform => Form.names_ne_iff.mpr (hbody form hform)) rootRule
    obtain ⟨entry, hfind⟩ := Option.isSome_iff_exists.mp hknown
    exact ne_tokenName (hnative id entry hfind).2.1 number
  exact fun form hform => Form.names_ne_iff.mp (hrooted form hform)

variable (hframe : ∀ binding ∈ host.frame.bindings, tokenName number ∉ binding.2.symbols)
  {forms : List Form} {progress : Progress}
  (h : expanded registry host options name body number = (.ok forms, progress))

include hframe h

end

/-- The body of a setup that may leave early. -/
def leaving : List Form := [.call ":needs" [.text "git"], .call ":hook" [.symbol "f"]]

/-- What becomes of a setup of `magit` with that body and the first token. -/
def leavingOutcome : Outcome where
  form := HostCode.catchFor (token 0)
    [.call "unless" [.call "executable-find" [.text "git"], HostCode.throwTo (token 0) Form.nil],
     .call "add-hook" [.quote (.symbol "magit-mode-hook"), .function (.symbol "f")]]
  target := some (.symbol "magit")
  token := token 0
  progress := {
    guarded := true
    replacements := 3
    deepest := 4
    tally := [(":needs", 1), (":hook", 1), (":with-feature", 1)] }

end Setup

end Rulebook
