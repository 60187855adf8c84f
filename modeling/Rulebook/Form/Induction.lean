import Rulebook.Form.Basic

/-!
# Induction on forms

Forms nest through lists. The principle below gives, for a list or a vector,
the hypothesis for every item, so that proofs need no companion statement about
lists of forms.
-/

namespace Rulebook.Form

/-- What holds of atoms, is kept by quoting and passes from the items to a list
or vector holds of every form. -/
@[elab_as_elim]
theorem induct {motive : Form → Prop} (symbol : ∀ name, motive (.symbol name))
    (text : ∀ content, motive (.text content)) (int : ∀ value, motive (.int value))
    (quote : ∀ inner, motive inner → motive (.quote inner))
    (function : ∀ inner, motive inner → motive (.function inner))
    (list : ∀ items, (∀ item ∈ items, motive item) → motive (.list items))
    (vector : ∀ items, (∀ item ∈ items, motive item) → motive (.vector items))
    (form : Form) : motive form :=
  @Form.rec motive (fun items => ∀ item ∈ items, motive item)
    symbol text int quote function list vector
    (fun _ mem => nomatch mem)
    (fun _ _ head tail item mem => by
      rcases List.mem_cons.mp mem with rfl | mem
      · exact head
      · exact tail item mem)
    form

end Rulebook.Form
