import AnimationGrammar.Proofs.Grammar.Membership
import AnimationGrammar.Proofs.Validation.Acceptance
import AnimationGrammar.Proofs.Validation.Readings

/-!
Lists whose items have to differ.

Items are compared by their texts, and a number can be too long to have one.  But every number that is
taken has a rounding, so outside of the token images, where free JSON is kept, no list of admitted items
is refused for the length of a number: it only has to be free of repetitions.
-/

namespace AnimationGrammar

open Form Value

/-! ### Numbers that can be written -/

/-- Whether a leaf takes no number without a rounding. -/
def Form.roundsNumbers : Form → Bool
  | .anyJson => false
  | .model name => name ∉ tokenImageModels
  | _ => true

def Form.RoundsNumbers (form : Form) : Prop := ∀ leaf ∈ form.leaves, leaf.roundsNumbers = true

instance (form : Form) : Decidable form.RoundsNumbers :=
  inferInstanceAs (Decidable (∀ leaf ∈ form.leaves, leaf.roundsNumbers = true))

theorem ModelName.field_roundsNumbers {name : ModelName} (apart : name ∉ tokenImageModels) :
    ∀ field ∈ name.definition.fields, field.form.RoundsNumbers := by
  have all : ∀ name ∈ ModelName.all, name ∉ tokenImageModels →
      ∀ field ∈ name.definition.fields, field.form.RoundsNumbers := by
    decide +kernel
  exact all name name.mem_all apart

theorem Form.RoundsNumbers.branch {dispatch : Dispatch} {branches : List (String × Form)}
    (rounds : (Form.choice dispatch branches).RoundsNumbers) {label : String} {form : Form}
    (entered : branches.lookup label = some form) : form.RoundsNumbers :=
  fun leaf isLeaf => rounds leaf (leaves_branch (lookup_eq_some_mem entered) isLeaf)

theorem Form.RoundsNumbers.ne_anyJson {form : Form} (rounds : form.RoundsNumbers) :
    form ≠ .anyJson := by
  rintro rfl
  exact Bool.false_ne_true (rounds .anyJson List.mem_cons_self)

theorem Form.RoundsNumbers.apart {name : ModelName} (rounds : (Form.model name).RoundsNumbers) :
    name ∉ tokenImageModels := by
  have taken := rounds (.model name) List.mem_cons_self
  rwa [roundsNumbers, decide_eq_true_eq] at taken

theorem Form.RoundsNumbers.field {name : ModelName} (rounds : (Form.model name).RoundsNumbers)
    {field : Field} (inFields : field ∈ name.definition.fields) : field.form.RoundsNumbers :=
  name.field_roundsNumbers rounds.apart field inFields

theorem Form.RoundsNumbers.closed {name : ModelName} (rounds : (Form.model name).RoundsNumbers) :
    name.definition.closed = true := by
  apply ModelName.closed_of_ne
  rintro rfl
  exact rounds.apart (by decide)

theorem Form.RoundsNumbers.part {form : Form} (rounds : form.RoundsNumbers) {value : Value}
    {part : Form × Value} (membership : part ∈ form.parts value) : part.1.RoundsNumbers := by
  rcases leaves_part membership with ⟨_, _, within⟩ | ⟨name, _, rfl, _, field, inFields, same, _⟩
  · exact fun leaf isLeaf => rounds leaf (within leaf isLeaf)
  · exact same ▸ rounds.field inFields

theorem flag_isLongNumber {n : Numeral} (one : n.isEqual (.integer 1) = true) :
    (Atom.number n).isLongNumber = false := by
  obtain ⟨x, rounded, _⟩ := Numeral.toDouble?_small (show (1 : ℤ).natAbs ≤ _ by decide)
  exact (isLongNumber_eq one).trans (isLongNumber_of_rounded rounded)

theorem Form.Fits.hasLongNumber_eq_false {form : Form} {value : Value}
    (fits : form.Fits .validation value) (rounds : form.RoundsNumbers)
    (part : ∀ {inner place}, (inner, place) ∈ form.parts value → place.hasLongNumber = false) :
    value.hasLongNumber = false := by
  cases form with
  | text rule =>
      obtain ⟨content, rfl, _⟩ := fits
      rfl
  | number rule =>
      obtain ⟨n, rfl, checked, accepted⟩ := fits
      unfold NumberRule.check at accepted
      split at accepted
      · cases accepted
      next x rounded => exact isLongNumber_of_rounded rounded
  | literal choices =>
      obtain ⟨content, _, rfl⟩ := fits
      rfl
  | flag =>
      rcases fits with rfl | ⟨n, rfl, one⟩
      · rfl
      · exact flag_isLongNumber one
  | anyJson => exact absurd rfl rounds.ne_anyJson
  | tuple positions distinct =>
      obtain ⟨items, rfl, length, _⟩ := fits
      refine hasLongNumber_list fun item membership => ?_
      rw [← List.map_snd_zip length.le, List.mem_map] at membership
      obtain ⟨place, paired, rfl⟩ := membership
      exact part (mem_parts_iff.mpr (.position paired))
  | list item minLength unique =>
      obtain ⟨items, rfl, _⟩ := fits
      exact hasLongNumber_list fun _ membership => part (mem_parts_iff.mpr (.item membership))
  | dictionary key item =>
      obtain ⟨entries, rfl, keys⟩ := fits
      refine hasLongNumber_mapping fun entry membership => ?_
      obtain ⟨name, isText, _⟩ := keys entry membership
      exact ⟨⟨name, by rw [isText, Atom.asText_text]⟩, part (mem_parts_iff.mpr (.entry membership))⟩
  | choice dispatch branches => exact fits.elim
  | model name =>
      obtain ⟨entries, rfl, fits⟩ := fits
      refine hasLongNumber_mapping fun entry membership => ?_
      rcases entry with ⟨key, inner⟩
      obtain ⟨fieldName, declared, isText⟩ := fits.known rounds.closed _ membership
      obtain ⟨field, inFields, rfl⟩ := List.mem_map.mp declared
      obtain rfl : key = .text field.name := isText
      exact ⟨⟨field.name, rfl⟩, part (mem_parts_iff.mpr (.field inFields membership))⟩

/-- Every number in a value can be written that is admitted by a form that rounds its numbers. -/
theorem Admits.hasLongNumber_eq_false {form : Form} {value : Value}
    (admits : Admits .validation form value) (rounds : form.RoundsNumbers) :
    value.hasLongNumber = false := by
  induction admits with
  | branch _ entered _ inductionHypothesis => exact inductionHypothesis (rounds.branch entered)
  | whole fits _ inductionHypothesis =>
      exact fits.hasLongNumber_eq_false rounds fun membership =>
        inductionHypothesis _ membership (rounds.part membership)

/-! ### Lists -/

theorem admits_uniqueList_iff {item : Form} (rounds : item.RoundsNumbers) {value : Value}
    (json : value.IsJson) : Admits .validation (.uniqueList item) value ↔
      ∃ items, value = .list items ∧ items ≠ [] ∧ (items.Pairwise fun a b => ¬ Similar a b) ∧
        ∀ part ∈ items, Admits .validation item part := by
  rw [Form.uniqueList, admits_whole_iff rfl]
  constructor
  · rintro ⟨⟨items, rfl, enough, unique⟩, parts⟩
    rw [Form.parts, List.forall_mem_map] at parts
    obtain ⟨distinct, _⟩ := repetition?_eq_none_iff.mp (unique rfl)
    exact ⟨items, rfl, List.ne_nil_of_length_pos enough,
      (noDuplicates_iff fun part => json.item).mp distinct, parts⟩
  · rintro ⟨items, rfl, given, distinct, parts⟩
    refine ⟨⟨items, rfl, List.length_pos_of_ne_nil given, fun _ => ?_⟩, ?_⟩
    · refine repetition?_eq_none_iff.mpr
        ⟨(noDuplicates_iff fun part => json.item).mpr distinct, fun part membership => ?_⟩
      exact (parts part membership).hasLongNumber_eq_false rounds
    · rwa [Form.parts, List.forall_mem_map]

end AnimationGrammar
