import Rulebook.Proofs.Restoration
import Rulebook.Proofs.ScopeHiding

/-!
# What can be seen of a context

A frame keeps every binding that was ever put into it, but a request only gets
to see the innermost one of each key. Scopes put the same bindings in front of
whatever is there, so two frames that bind the keys alike go on doing so inside
every scope, and everything that rules do goes through the scene. So all that
an expander does is the same in both frames, the progress included. The five
bindings themselves can be asked for, so there is nothing more to it: frames are
told apart by some request just when they bind some key differently.

A feature binds all keys but one. In its scope only the tag of early exits is
left of the frame outside.
-/

namespace Rulebook

/-- In contexts that bind the keys alike every operation is the same run. -/
theorem Expander.scenes_of_agrees (expander : Expander) {other : Frame}
    (h : expander.frame.Agrees other) :
    Pairing.equal.Scenes expander.scene { expander with frame := other }.scene :=
  ⟨rfl, h, fun hinner form => expander.settings.expand_congr _ _ hinner form⟩

namespace Request

/-- The request is answered alike in the expander's own context and in another
one, with the same progress, and either context stays what it is. -/
def Indifferent (request : Request) (expander : Expander) (other : Frame) : Prop :=
  request.serve { expander with frame := other } =
    ((request.serve expander).1, { (request.serve expander).2 with frame := other })

variable {expander : Expander} {other : Frame}

/-- A request is indifferent if it is served by the same run in both contexts. -/
theorem indifferent_of_eq {α : Type} {request : Request} {run same : Run α} {reply : α → Reply}
    (hserve : request.serve expander = expander.carry (reply <$> run))
    (hother : request.serve { expander with frame := other } =
      { expander with frame := other }.carry (reply <$> same)) (h : run = same) :
    request.Indifferent expander other := by
  rw [Indifferent, hserve, hother, h]
  rfl

theorem indifferent_of_agrees (h : expander.frame.Agrees other) (request : Request) :
    request.Indifferent expander other := by
  have hscenes := expander.scenes_of_agrees h
  cases request with
  | expand form =>
      exact indifferent_of_eq (serve_expand _ form) (serve_expand _ form) (hscenes.expandIn h form)
  | expandAll forms =>
      exact indifferent_of_eq (serve_expandAll _ forms) (serve_expandAll _ forms)
        (hscenes.expandAll forms)
  | expandBody forms =>
      exact indifferent_of_eq (serve_expandBody _ forms) (serve_expandBody _ forms)
        (hscenes.expandBody forms)
  | enter scope targets body =>
      exact indifferent_of_eq (serve_enter _ scope targets body) (serve_enter _ scope targets body)
        (hscenes.enter scope targets body)
  | deduce key =>
      exact indifferent_of_eq (serve_deduce _ key) (serve_deduce _ key) (hscenes.deduce key)
  | exit value =>
      exact indifferent_of_eq (serve_exit _ value) (serve_exit _ value) (hscenes.exit value)
  | apply id args =>
      cases hfind : expander.settings.registry.find? id with
      | some entry =>
          exact indifferent_of_eq (serve_apply _ hfind args)
            (serve_apply { expander with frame := other } hfind args) (hscenes.apply entry args)
      | none =>
          unfold Indifferent
          simp only [serve, hfind]
  | within frame requests =>
      rfl

/-- What a key is bound to can be asked for. -/
theorem find?_eq_of_indifferent {key : Key}
    (h : (Request.deduce key).Indifferent expander other) :
    expander.frame.find? key = other.find? key := by
  have hreply := congrArg Prod.fst h
  simp only [serve_deduce, Expander.carry, Expander.scene, Settings.inside, Scene.deduce,
    Run.perform_map, Run.perform_settled, Frame.deduce] at hreply
  cases hone : expander.frame.find? key with
  | none =>
      cases htwo : other.find? key with
      | none => rfl
      | some value =>
          rw [hone, htwo] at hreply
          cases hreply
  | some value =>
      cases htwo : other.find? key with
      | none =>
          rw [hone, htwo] at hreply
          cases hreply
      | some found =>
          rw [hone, htwo] at hreply
          cases hreply
          rfl

theorem indifferent_feature (h : expander.frame.find? .quit = other.find? .quit) (name : String)
    (body : List Form) :
    (Request.enter .feature (.symbol name) body).Indifferent expander other := by
  have hinside : Pairing.equal.Scenes
      (expander.scene.withFrame (expander.frame.within .feature name))
      (expander.scene.withFrame (other.within .feature name)) :=
    ⟨rfl, Frame.agrees_within_feature h name,
      fun hinner form => expander.settings.expand_congr _ _ hinner form⟩
  refine indifferent_of_eq (serve_enter ..) (serve_enter ..) ?_
  rw [Scene.enter_symbol, Scene.enter_symbol]
  exact hinside.expandBody body

/-- Two contexts bind the five keys alike just when no request tells them apart,
whatever they hold behind these bindings: every reply is the same, and so is the
progress that is left. The scope of a feature is the same already where the tag
of early exits is. -/
theorem agrees_iff_indifferent (expander : Expander) (other : Frame) :
    (expander.frame.Agrees other ↔ ∀ request : Request, request.Indifferent expander other) ∧
    (expander.frame.find? .quit = other.find? .quit → ∀ (name : String) (body : List Form),
      (Request.enter .feature (.symbol name) body).Indifferent expander other) := by
  refine ⟨⟨indifferent_of_agrees, fun h key => ?_⟩, indifferent_feature⟩
  exact find?_eq_of_indifferent (h (.deduce key))

/-- A hook bound over another is as good as the hook alone. -/
theorem agrees_iff_indifferent_of_hook :
    (hookNamed "one").Agrees ((hookNamed "two").bind .hook (.symbol "one")) ∧
    ((Request.expand (.call ":hook" [.symbol "a"])).serve
        { settings := builtinSettings
          frame := (hookNamed "two").bind .hook (.symbol "one") }).1 =
      .ok (.form (.call "add-hook" [.quote (.symbol "one"), .function (.symbol "a")])) := by
  have hagrees : (hookNamed "one").Agrees ((hookNamed "two").bind .hook (.symbol "one")) := by
    intro key
    cases key <;> rfl
  let expander : Expander := { settings := builtinSettings, frame := hookNamed "one" }
  have hsame := (agrees_iff_indifferent expander _).1.mp hagrees
    (.expand (.call ":hook" [.symbol "a"]))
  unfold Indifferent at hsame
  refine ⟨hagrees, (congrArg Prod.fst hsame).trans ?_⟩
  rfl

end Request

end Rulebook
