import AnimationGrammar.Proofs.Grammar.Reach

/-!
The forms of the grammar.

A form of the grammar has a name, belongs to a model or a field of one, or is a component of such a form.
All of them are uniform, and all but that of token images keep the keys of every object: an object with
a key that its model does not know is refused.
-/

namespace AnimationGrammar

namespace Form

def components : Form → List Form
  | .tuple positions _ => positions
  | .list item _ _ => [item]
  | .dictionary _ item => [item]
  | .choice _ branches => branches.map Prod.snd
  | _ => []

/-- The forms that the grammar is about. -/
inductive IsOfGrammar : Form → Prop
  | named {name : String} {form : Form} : (name, form) ∈ named → IsOfGrammar form
  | model (name : ModelName) : IsOfGrammar (.model name)
  | field {name : ModelName} {field : Field} : field ∈ name.definition.fields →
      IsOfGrammar field.form
  | component {form inner : Form} : IsOfGrammar form → inner ∈ form.components → IsOfGrammar inner

theorem named_isUniform : ∀ entry ∈ named, entry.2.isUniform = true := by
  decide +kernel

theorem isUniform_component {form inner : Form} (uniform : form.isUniform = true)
    (inside : inner ∈ form.components) : inner.isUniform = true := by
  apply isUniform_of_isRegular
  cases form with
  | tuple positions distinct =>
      simp only [isUniform, isRegular, Bool.and_eq_true, areRegular_iff] at uniform
      exact uniform.1 inner inside
  | list item minLength unique => exact List.mem_singleton.mp inside ▸ uniform
  | dictionary key item => exact List.mem_singleton.mp inside ▸ uniform
  | choice dispatch branches =>
      obtain ⟨branch, membership, rfl⟩ := List.mem_map.mp inside
      exact (regularChoice_iff.mp uniform).branchRegular branch membership
  | _ => simp [components] at inside

theorem IsOfGrammar.isUniform {form : Form} (grammar : form.IsOfGrammar) :
    form.isUniform = true := by
  induction grammar with
  | named membership => exact named_isUniform _ membership
  | model name => rfl
  | @field name field membership =>
      exact isUniform_of_isRegular (name.field_isRegular field membership)
  | component _ inside inductionHypothesis => exact isUniform_component inductionHypothesis inside

/-! ### Keys that are kept -/

/-- Whether a leaf keeps the keys of an object, which a model does that knows all of them. -/
def keepsKeys : Form → Bool
  | .model name => name.definition.closed
  | _ => true

theorem named_keepsKeys :
    (named.all fun entry => entry.2.leaves.all keepsKeys) = true := by
  decide +kernel

theorem leaves_component {form inner : Form} (inside : inner ∈ form.components) :
    ∀ leaf ∈ inner.leaves, leaf ∈ form.leaves := by
  intro leaf isLeaf
  cases form with
  | tuple positions distinct => exact leaves_position inside isLeaf
  | list item minLength unique => exact List.mem_singleton.mp inside ▸ isLeaf
  | dictionary key item => exact List.mem_singleton.mp inside ▸ isLeaf
  | choice dispatch branches =>
      obtain ⟨branch, membership, rfl⟩ := List.mem_map.mp inside
      exact leaves_branch membership isLeaf
  | _ => simp [components] at inside

end Form

namespace ModelName

theorem closed_of_ne {name : ModelName} (other : name ≠ .tokenImages) :
    name.definition.closed = true := by
  cases name <;> first | rfl | exact absurd rfl other

theorem field_keepsKeys (name : ModelName) : ∀ field ∈ name.definition.fields,
    ∀ leaf ∈ field.form.leaves, leaf.keepsKeys = true := by
  have all : (ModelName.all.all fun name => name.definition.fields.all fun field =>
      field.form.leaves.all Form.keepsKeys) = true := by
    decide +kernel
  simp only [List.all_eq_true] at all
  exact all name name.mem_all

end ModelName

namespace Form

theorem IsOfGrammar.keepsKeys {form : Form} (grammar : form.IsOfGrammar)
    (other : form ≠ .model .tokenImages) : ∀ leaf ∈ form.leaves, leaf.keepsKeys = true := by
  induction grammar with
  | @named name form membership =>
      have kept := List.all_eq_true.mp named_keepsKeys (name, form) membership
      exact List.all_eq_true.mp kept
  | model name =>
      intro leaf isLeaf
      rw [leaves_model, List.mem_singleton] at isLeaf
      rw [isLeaf]
      exact ModelName.closed_of_ne fun same => other (congrArg Form.model same)
  | @field name field membership => exact name.field_keepsKeys field membership
  | @component form inner _ inside inductionHypothesis =>
      have outer : form ≠ .model .tokenImages := by
        rintro rfl
        simp [components] at inside
      exact fun leaf isLeaf => inductionHypothesis outer leaf (leaves_component inside leaf isLeaf)

end Form

theorem Form.keepsKeys_of_mem_parts {form : Form} {value : Value} {part : Form × Value}
    (kept : ∀ leaf ∈ form.leaves, leaf.keepsKeys = true) (membership : part ∈ form.parts value) :
    ∀ leaf ∈ part.1.leaves, leaf.keepsKeys = true := by
  rcases leaves_part membership with ⟨_, _, within⟩ | ⟨name, _, rfl, _, field, inFields, same, _⟩
  · exact fun leaf isLeaf => kept leaf (within leaf isLeaf)
  · exact same ▸ name.field_keepsKeys field inFields

end AnimationGrammar
