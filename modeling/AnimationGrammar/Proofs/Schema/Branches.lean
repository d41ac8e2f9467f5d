import AnimationGrammar.Proofs.Grammar.Regular
import AnimationGrammar.Proofs.Schema.Acceptance
import AnimationGrammar.Proofs.Value.Canonical

/-!
The branches of a union in its schema.

Repeated schemas are left out of a union.  The branches of a regular union bear different marks, and a
mark is found in the text of a schema again, so none of them is left out.
-/

namespace AnimationGrammar

open Value

/-! ### Marks -/

theorem definitionPath_injective {first second : String}
    (same : definitionPath first = definitionPath second) : first = second := by
  rw [definitionPath, definitionPath, ← String.toList_inj, String.toList_append,
    String.toList_append] at same
  exact String.toList_inj.mp (List.append_cancel_left same)

theorem Keyword.mark_of_text {keyword other : Keyword} {mark : String × Atom}
    (marked : keyword.mark? = some mark) (sameName : other.name = keyword.name)
    (sameText : (Schema.renderKeyword other).canonicalText =
      (Schema.renderKeyword keyword).canonicalText) : other.mark? = some mark := by
  cases keyword with
  | type name =>
      cases other with
      | type otherName =>
          simp only [Schema.renderKeyword, canonicalText, Atom.canonicalText] at sameText
          rw [asciiQuoted_injective sameText]
          exact marked
      | _ => simp [Keyword.name] at sameName
  | ref name =>
      cases other with
      | ref otherName =>
          simp only [Schema.renderKeyword, canonicalText, Atom.canonicalText] at sameText
          rw [definitionPath_injective (asciiQuoted_injective sameText)]
          exact marked
      | _ => simp [Keyword.name] at sameName
  | minItems count =>
      cases other with
      | minItems otherCount =>
          simp only [Schema.renderKeyword, naturalValue, canonicalText, Atom.canonicalText,
            Numeral.canonicalText] at sameText
          rw [Int.ofNat_inj.mp (integerText_injective sameText)]
          exact marked
      | _ => simp [Keyword.name] at sameName
  | _ => simp [mark?] at marked

namespace Schema

theorem renderKeywords_eq (schema : Schema) :
    renderKeywords schema =
      schema.map fun keyword => (keyword.name, renderKeyword keyword) := by
  induction schema with
  | nil => rw [renderKeywords, List.map_nil]
  | cons keyword rest inductionHypothesis =>
      rw [renderKeywords, inductionHypothesis, List.map_cons]

theorem mem_renderedMembers {schema : Schema} {name text : String} :
    (name, text) ∈ canonicalEntries ((sortByName (renderKeywords schema)).map fun entry =>
        (Atom.text entry.1, entry.2)) ↔
      ∃ keyword ∈ schema, keyword.name = name ∧
        (renderKeyword keyword).canonicalText = text := by
  rw [canonicalEntries_eq, List.map_map, List.mem_map]
  simp only [sortByName, List.mem_mergeSort, renderKeywords_eq, List.mem_map]
  constructor
  · rintro ⟨_, ⟨keyword, membership, rfl⟩, same⟩
    cases same
    exact ⟨keyword, membership, rfl, rfl⟩
  · rintro ⟨keyword, membership, named, text⟩
    exact ⟨_, ⟨keyword, membership, rfl⟩, Prod.ext named text⟩

/-- Schemas that are written alike bear the same marks. -/
theorem marks_of_isSame {a b : Schema} (same : isSame a b = true) :
    ∀ mark ∈ a.marks, mark ∈ b.marks := by
  rw [isSame, beq_iff_eq, render, render, arrange, arrange, if_neg Bool.false_ne_true,
    if_neg Bool.false_ne_true, Value.object, Value.object, canonicalText, canonicalText] at same
  have members := mem_iff_of_canonicalObject (written_canonicalEntries _)
    (written_canonicalEntries _) same
  intro mark membership
  obtain ⟨keyword, inSchema, marked⟩ := List.mem_filterMap.mp membership
  have written := mem_renderedMembers.mpr ⟨keyword, inSchema, rfl, rfl⟩
  obtain ⟨other, inOther, sameName, sameText⟩ :=
    mem_renderedMembers.mp ((members _).mp written)
  exact List.mem_filterMap.mpr ⟨other, inOther, Keyword.mark_of_text marked sameName sameText⟩

theorem isSame_comm (a b : Schema) : isSame a b = isSame b a := by
  rw [isSame, isSame, Bool.eq_iff_iff, beq_iff_eq, beq_iff_eq, eq_comm]

theorem isSame_of_isMarkedApart {a b : Schema} (apart : a.isMarkedApart b = true) :
    isSame a b = false := by
  by_contra same
  rw [Bool.not_eq_false] at same
  have forward := marks_of_isSame same
  have backward := marks_of_isSame (isSame_comm a b ▸ same)
  simp only [isMarkedApart, Bool.not_eq_true', Bool.and_eq_false_iff, List.all_eq_false,
    decide_eq_true_eq] at apart
  rcases apart with ⟨mark, membership, missing⟩ | ⟨mark, membership, missing⟩
  · exact missing (forward mark membership)
  · exact missing (backward mark membership)

end Schema

theorem withoutRepeats_of_isMarkedApart {schemas : List Schema}
    (apart : schemas.Pairwise fun a b => a.isMarkedApart b = true) :
    withoutRepeats schemas = schemas := by
  suffices ∀ kept : List Schema, (kept ++ schemas).Pairwise (fun a b => Schema.isSame a b = false) →
      schemas.foldl (fun kept schema => if kept.any schema.isSame then kept else kept ++ [schema])
        kept = kept ++ schemas from
    this [] (apart.imp Schema.isSame_of_isMarkedApart)
  clear apart
  induction schemas with
  | nil =>
      intro kept _
      simp
  | cons schema rest inductionHypothesis =>
      intro kept different
      have fresh : kept.any schema.isSame = false := by
        rw [List.any_eq_false]
        intro earlier inKept same
        have apart := (List.pairwise_append.mp different).2.2 earlier inKept schema
          List.mem_cons_self
        rw [Schema.isSame_comm, same] at apart
        simp at apart
      rw [List.foldl_cons, fresh, if_neg (by simp), inductionHypothesis (kept ++ [schema])]
      · simp
      · simpa using different

namespace Form

theorem branchSchemas_eq (branches : List (String × Form)) :
    branchSchemas branches = branches.map fun branch => branch.2.schema := by
  induction branches with
  | nil => rfl
  | cons branch rest inductionHypothesis =>
      rcases branch with ⟨label, form⟩
      rw [branchSchemas, inductionHypothesis, List.map_cons]

theorem positionSchemas_eq (positions : List Form) :
    positionSchemas positions = positions.map schema := by
  induction positions with
  | nil => rfl
  | cons form rest inductionHypothesis =>
      rw [positionSchemas, inductionHypothesis, List.map_cons]

/-- The branches of a regular union are all found in its schema. -/
theorem RegularChoice.withoutRepeats_eq {dispatch : Dispatch} {branches : List (String × Form)}
    (choice : RegularChoice dispatch branches) :
    withoutRepeats (branchSchemas branches) = branches.map fun branch => branch.2.schema := by
  rw [withoutRepeats_of_isMarkedApart choice.schemasDiffer, branchSchemas_eq]

end Form

/-! ### Exactly one -/

theorem exactlyOne_iff {value : Value} {properties : List (Value → Prop)} :
    ExactlyOne value properties ↔
      (∃ property ∈ properties, property value) ∧
        properties.Pairwise fun first second => ¬ (first value ∧ second value) := by
  induction properties with
  | nil => simp [ExactlyOne]
  | cons first rest inductionHypothesis =>
      rw [ExactlyOne, inductionHypothesis, List.pairwise_cons]
      by_cases holds : first value
      · simp only [holds, true_and, not_true, false_and, or_false, List.mem_cons,
          exists_eq_or_imp, true_or]
        constructor
        · intro none
          refine ⟨none, List.pairwise_of_forall_mem_list ?_⟩
          rintro one inRest _ _ ⟨holdsToo, _⟩
          exact none one inRest holdsToo
        · rintro ⟨none, _⟩
          exact none
      · simp [holds]

end AnimationGrammar
