import AnimationGrammar.Proofs.Playback.Placement
import AnimationGrammar.Proofs.Validation.Numbers

/-!
Drawing numbers for an offset.

A range is drawn from with its smaller bound first, in whichever order the two are written.  What becomes
of an axis, of an offset and of a placement is said here by what can be looked up in them.
-/

namespace AnimationGrammar

open Value

/-! ### One drawing after another -/

namespace Drawing

variable {σ α β : Type} {state next : σ} {a : α}

def pure (a : α) : Drawing σ α := fun state => .ok (a, state)

def bind (first : Drawing σ α) (later : α → Drawing σ β) : Drawing σ β := fun state =>
  match first state with
  | .error failure => .error failure
  | .ok (a, middle) => later a middle

def map (f : α → β) (drawing : Drawing σ α) : Drawing σ β := drawing.bind fun a => .pure (f a)

theorem bind_ok {first : Drawing σ α} (drawn : first state = .ok (a, next))
    (later : α → Drawing σ β) : first.bind later state = later a next := by
  rw [bind, drawn]

theorem map_ok {drawing : Drawing σ α} (drawn : drawing state = .ok (a, next)) (f : α → β) :
    drawing.map f state = .ok (f a, next) := by
  rw [map, bind_ok drawn, pure]

theorem map_eq (drawing : Drawing σ α) (f : α → β) (state : σ) :
    drawing.map f state = (drawing state).map fun (a, next) => (f a, next) := by
  unfold map bind
  cases drawing state <;> rfl

end Drawing

/-! ### Drawing from a range -/

theorem Numeral.isLess_swap {a b : Numeral} (first : a.IsOrdered) (second : b.IsOrdered)
    (differ : a.isEqual b = false) : a.isLess b = !b.isLess a := by
  have apart : a.place ≠ b.place := by
    rw [ne_eq, ← isEqual_iff first second, differ]
    exact Bool.false_ne_true
  rw [Bool.eq_iff_iff, Bool.not_eq_true', ← Bool.not_eq_true, isLess_iff first second,
    isLess_iff second first, not_lt]
  exact ⟨le_of_lt, fun atMost => lt_of_le_of_ne atMost apart⟩

section
variable {σ : Type} {source : RandomSource σ}

theorem drawFrom_pair (a b : Numeral) : drawFrom source [.number a, .number b] =
    if b.isLess a then source.uniform b a else source.uniform a b := by
  funext state
  simp only [drawFrom, sortedBounds, boundIsLess, boundNumeral?, Atom.numeral?]
  cases b.isLess a <;> rfl

theorem drawFrom_swap {a b : Numeral} (first : a.IsOrdered) (second : b.IsOrdered)
    (differ : a.isEqual b = false) :
    drawFrom source [.number b, .number a] = drawFrom source [.number a, .number b] := by
  rw [drawFrom_pair, drawFrom_pair, Numeral.isLess_swap first second differ]
  cases b.isLess a <;> rfl

end

/-! ### One axis -/

/-- What may be given for an axis where both bounds of a range are numbers and differ. -/
inductive IsOrderedAxis : Option Value → Prop
  | absent : IsOrderedAxis none
  | fixed {x} : IsOrderedAxis (some (.double x))
  | range {a b : Double} : (Numeral.double a).IsOrdered → (Numeral.double b).IsOrdered →
      (Numeral.double a).isEqual (.double b) = false →
      IsOrderedAxis (some (.tuple [.double a, .double b]))

def drawAxis {σ : Type} (source : RandomSource σ) : Option Value → Drawing σ (Option Value)
  | none => .pure none
  | some .null => .pure none
  | some (.list range) => (drawFrom source range).map fun x => some (.double x)
  | some (.tuple range) => (drawFrom source range).map fun x => some (.double x)
  | some value => .pure (some value)

/-- A random source that answers with a number between two numbers in order. -/
def RandomSource.StaysBetween {σ : Type} (source : RandomSource σ) : Prop :=
  ∀ low high : Double, low.isAtMost high = true → ∀ state, ∃ x next,
    source.uniform (.double low) (.double high) state = .ok (x, next) ∧
      low.isAtMost x = true ∧ x.isAtMost high = true

/-- What becomes of an axis: a number stays, and a range turns into a number between its bounds, the only
one that is drawn. -/
inductive AxisResolves {σ : Type} (source : RandomSource σ) : Option Value → σ → Option Value → σ → Prop
  | absent {state} : AxisResolves source none state none state
  | fixed {x state} : AxisResolves source (some (.double x)) state (some (.double x)) state
  | range {a b low high x state next} : low = a ∧ high = b ∨ low = b ∧ high = a →
      low.isLess high = true →
      source.uniform (.double low) (.double high) state = .ok (x, next) →
      low.isAtMost x = true → x.isAtMost high = true →
      AxisResolves source (some (.tuple [.double a, .double b])) state (some (.double x)) next

section
variable {σ : Type} {source : RandomSource σ}

theorem resolveAxis_eq (offset : Value) (axis : String) :
    resolveAxis source offset axis = (drawAxis source (offset.get? axis)).map fun found =>
      (found.map (Prod.mk (.text axis))).toList := by
  funext state
  unfold resolveAxis
  cases offset.get? axis with
  | none => rfl
  | some value =>
      cases value with
      | atom a => cases a <;> rfl
      | list range =>
          simp only [drawAxis, Drawing.map_eq]
          cases drawFrom source range state <;> rfl
      | tuple range =>
          simp only [drawAxis, Drawing.map_eq]
          cases drawFrom source range state <;> rfl
      | mapping entries => rfl
      | record model fields => rfl

theorem drawAxis_resolves (between : source.StaysBetween) {given : Option Value}
    (isAxis : IsOrderedAxis given) (state : σ) :
    ∃ found next, drawAxis source given state = .ok (found, next) ∧
      AxisResolves source given state found next := by
  cases isAxis with
  | absent => exact ⟨none, state, rfl, .absent⟩
  | fixed => exact ⟨_, state, rfl, .fixed⟩
  | @range a b first second differ =>
      obtain ⟨low, high, sides, below, same⟩ : ∃ low high : Double,
          (low = a ∧ high = b ∨ low = b ∧ high = a) ∧ low.isLess high = true ∧
            drawFrom source [.double a, .double b] = source.uniform (.double low) (.double high) := by
        rw [drawFrom_pair]
        by_cases swapped : (Numeral.double b).isLess (.double a) = true
        · exact ⟨b, a, .inr ⟨rfl, rfl⟩, by rw [Double.isLess_eq, swapped], if_pos swapped⟩
        · refine ⟨a, b, .inl ⟨rfl, rfl⟩, ?_, if_neg swapped⟩
          rw [Double.isLess_eq, Numeral.isLess_swap first second differ,
            Bool.eq_false_of_not_eq_true swapped, Bool.not_false]
      have atMost : low.isAtMost high = true := by
        rw [Double.isAtMost, below, Bool.true_or]
      obtain ⟨x, next, drawn, least, most⟩ := between low high atMost state
      refine ⟨some (.double x), next, ?_, .range sides below drawn least most⟩
      rw [drawAxis, same, Drawing.map_ok drawn]

end

/-! ### Entries that are given -/

def givenEntries (members : List (String × Option Value)) : List (Atom × Value) :=
  members.filterMap fun member => member.2.map (Prod.mk (.text member.1))

theorem lookupText_givenEntries (name : String) {members : List (String × Option Value)}
    (namesDiffer : (members.map Prod.fst).Nodup) :
    lookupText name (givenEntries members) = (members.lookup name).join := by
  induction members with
  | nil => rfl
  | cons member rest inductionHypothesis =>
      rcases member with ⟨key, found⟩
      rw [List.map_cons, List.nodup_cons] at namesDiffer
      have later := inductionHypothesis namesDiffer.2
      unfold givenEntries at later ⊢
      by_cases same : name = key
      · subst same
        cases found with
        | some value => simp [lookupText]
        | none => simp [later, lookup_eq_none_of_fresh namesDiffer.1]
      · cases found <;> simp [lookupText, later, List.lookup_cons, beq_false_of_ne same, Ne.symm same]

theorem isJsonNode_givenEntries {members : List (String × Option Value)}
    (namesDiffer : (members.map Prod.fst).Nodup) :
    (Value.mapping (givenEntries members)).IsJsonNode := by
  have named (member : String × Option Value) (entry : Atom × Value)
      (picked : member.2.map (Prod.mk (.text member.1)) = some entry) : entry.1 = .text member.1 := by
    obtain ⟨value, _, rfl⟩ := Option.map_eq_some_iff.mp picked
    rfl
  constructor
  · intro entry membership
    obtain ⟨member, _, picked⟩ := List.mem_filterMap.mp membership
    exact ⟨member.1, named member entry picked⟩
  · have texts : (members.map fun member => Atom.text member.1).Nodup := by
      have injective : Function.Injective Atom.text := fun _ _ same => Atom.text.inj same
      simpa [List.map_map, Function.comp_def] using namesDiffer.map injective
    exact texts.sublist (names_filterMap_sublist named members)

/-! ### Offsets and placements as mappings -/

def offsetFlips : List String := ["flipX", "flipY"]

def setFlip (offset : Value) (flip : String) : Option Value :=
  (offset.get? flip).bind fun value => if value.isTruthy then some (.boolean true) else none

/-- The members of an offset, given what has become of its axes. -/
def resolvedMembers (offset : Value) (x y : Option Value) : List (Atom × Value) :=
  givenEntries ([("x", x), ("y", y)] ++ offsetFlips.map fun flip => (flip, setFlip offset flip))

theorem lookupText_resolvedMembers (offset : Value) (x y : Option Value) (name : String) :
    lookupText name (resolvedMembers offset x y) =
      if name = "x" then x else if name = "y" then y
      else if name ∈ offsetFlips then setFlip offset name else none := by
  unfold resolvedMembers
  rw [lookupText_givenEntries name (by simp [offsetFlips])]
  by_cases isX : name = "x"
  · subst isX
    rfl
  · by_cases isY : name = "y"
    · subst isY
      rfl
    · by_cases isFlip : name ∈ offsetFlips
      · simp only [offsetFlips, List.mem_cons, List.not_mem_nil, or_false] at isFlip
        rcases isFlip with rfl | rfl <;> rfl
      · rw [if_neg isX, if_neg isY, if_neg isFlip, lookup_eq_none_of_fresh, Option.join_none]
        simpa [offsetFlips, isX, isY] using isFlip

theorem isJsonNode_resolvedMembers (offset : Value) (x y : Option Value) :
    (Value.mapping (resolvedMembers offset x y)).IsJsonNode :=
  isJsonNode_givenEntries (by simp [offsetFlips])

theorem lookupText_filter_ne {α : Type} (name other : String) (entries : List (Atom × α)) :
    lookupText name (entries.filter fun entry => entry.1 ≠ .text other) =
      if name = other then none else lookupText name entries := by
  induction entries with
  | nil => simp [lookupText]
  | cons entry rest inductionHypothesis =>
      rcases entry with ⟨key, value⟩
      by_cases dropped : key = .text other
      · rw [List.filter_cons_of_neg (by simp [dropped]), inductionHypothesis, lookupText, dropped]
        by_cases same : name = other
        · rw [if_pos same, if_pos same]
        · rw [if_neg same, if_neg same, if_neg fun named => same (Atom.text.inj named).symm]
      · rw [List.filter_cons_of_pos (by simp [dropped]), lookupText, inductionHypothesis, lookupText]
        by_cases found : key = .text name
        · have apart : name ≠ other := by
            rintro rfl
            exact dropped found
          rw [if_pos found, if_pos found, if_neg apart]
        · rw [if_neg found, if_neg found]

def withOffset (entries : List (Atom × Value)) (offset : Option Value) : List (Atom × Value) :=
  (entries.filter fun entry => entry.1 ≠ .text "offset") ++
    (offset.map (Prod.mk (.text "offset"))).toList

theorem lookupText_withOffset (entries : List (Atom × Value)) (offset : Option Value)
    (name : String) : lookupText name (withOffset entries offset) =
      if name = "offset" then offset else lookupText name entries := by
  unfold withOffset
  rw [lookupText_append, lookupText_filter_ne]
  by_cases same : name = "offset"
  · cases offset <;> simp [same, lookupText]
  · cases offset <;> simp [lookupText, same, Ne.symm same]

theorem isJsonNode_withOffset {entries : List (Atom × Value)}
    (node : (Value.mapping entries).IsJsonNode) (offset : Option Value) :
    (Value.mapping (withOffset entries offset)).IsJsonNode := by
  obtain ⟨texts, keysDiffer⟩ := node
  unfold withOffset
  constructor
  · intro entry membership
    rcases List.mem_append.mp membership with kept | added
    · exact texts entry (List.mem_of_mem_filter kept)
    · obtain ⟨value, _, rfl⟩ := Option.map_eq_some_iff.mp (Option.mem_toList.mp added)
      exact ⟨"offset", rfl⟩
  · rw [List.map_append, List.nodup_append]
    refine ⟨keysDiffer.sublist (List.filter_sublist.map Prod.fst), by cases offset <;> simp, ?_⟩
    intro key kept other added
    obtain ⟨entry, inFilter, rfl⟩ := List.mem_map.mp kept
    have apart : entry.1 ≠ .text "offset" := by simpa using (List.mem_filter.mp inFilter).2
    cases offset with
    | none => simp at added
    | some value =>
        rw [Option.map_some, Option.toList_some, List.map_singleton, List.mem_singleton] at added
        rw [added]
        exact apart

section
variable {σ : Type} {source : RandomSource σ}

theorem resolveFlips_eq (offset : Value) : resolveFlips offset =
    givenEntries (offsetFlips.map fun flip => (flip, setFlip offset flip)) := by
  unfold resolveFlips givenEntries
  rw [List.filterMap_map]
  refine congrFun (congrArg List.filterMap (funext fun flip => ?_)) offsetFlips
  rw [Function.comp_apply, setFlip]
  cases given : offset.get? flip with
  | none => rfl
  | some value =>
      by_cases truthy : value.isTruthy = true
      · simp [truthy]
      · simp [truthy]

theorem resolveOffset_eq (entries : List (Atom × Value)) :
    resolveOffset source (.mapping entries) =
      (drawAxis source (lookupText "x" entries)).bind fun x =>
        (drawAxis source (lookupText "y" entries)).map fun y =>
          .mapping (resolvedMembers (.mapping entries) x y) := by
  funext state
  rw [resolveOffset, resolveAxis_eq, resolveAxis_eq, Drawing.map_eq, get?, get?]
  unfold Drawing.bind
  cases drawAxis source (lookupText "x" entries) state with
  | error failure => rfl
  | ok first =>
      rcases first with ⟨x, middle⟩
      simp only [Except.map, Drawing.map_eq]
      cases drawAxis source (lookupText "y" entries) middle with
      | error failure => rfl
      | ok second =>
          rcases second with ⟨y, next⟩
          simp only [resolveFlips_eq]
          cases x <;> cases y <;> rfl

theorem resolveOffset_congr {entries others : List (Atom × Value)}
    (axes : ∀ axis ∈ offsetAxes,
      drawAxis source (lookupText axis entries) = drawAxis source (lookupText axis others))
    (flips : ∀ flip ∈ offsetFlips, lookupText flip entries = lookupText flip others) :
    resolveOffset source (.mapping entries) = resolveOffset source (.mapping others) := by
  have members (x y : Option Value) :
      resolvedMembers (.mapping entries) x y = resolvedMembers (.mapping others) x y := by
    unfold resolvedMembers
    rw [List.map_congr_left fun flip isFlip => ?_]
    rw [setFlip, setFlip, get?, get?, flips flip isFlip]
  simp only [resolveOffset_eq, axes "x" (by decide), axes "y" (by decide), members]

theorem resolvePlacement_unplaced {options : Value}
    (absent : lookupText "offset" (placementEntries options) = none) :
    resolvePlacement source options = .pure (withOffset (placementEntries options) none) := by
  funext state
  simp [resolvePlacement, withOffset, absent, Drawing.pure]

theorem resolvePlacement_placed {options offset : Value}
    (given : lookupText "offset" (placementEntries options) = some offset)
    (truthy : offset.isTruthy = true) :
    resolvePlacement source options = (resolveOffset source offset).map fun resolved =>
      withOffset (placementEntries options) (some resolved) := by
  funext state
  simp [resolvePlacement, withOffset, given, truthy, Drawing.map_eq]

end

/-! ### A source that stays between its bounds -/

/-- The random source that answers with the lower bound, and counts how often it is asked. -/
def RandomSource.lower : RandomSource Nat where
  uniform low _ draws := .ok ((low.toDouble?.getD .zero).add .zero, draws + 1)

theorem Double.ofUnits_exact (negative : Bool) (magnitude : Magnitude) :
    Double.ofUnits negative magnitude.units 1 = .finite negative magnitude := by
  have rounded : Magnitude.ofUnits? magnitude.units 1 = some magnitude := by
    rw [← Nat.mul_one magnitude.units, Magnitude.ofUnits?_exact magnitude.representable Nat.one_pos]
  unfold ofUnits
  rw [rounded]

/-- Adding zero only takes the sign from a zero. -/
theorem Double.add_zero {x : Double} (ordered : (Numeral.double x).IsOrdered) :
    (Numeral.double (x.add .zero)).IsOrdered ∧
      (Numeral.double (x.add .zero)).place = (Numeral.double x).place := by
  rcases x with ⟨negative, magnitude⟩ | negative | _
  · have zero : signed false Magnitude.zero.units = 0 := rfl
    have place (sign : Bool) (other : Magnitude) :
        (Numeral.double (.finite sign other)).place = finitePlace (signed sign other.units) := rfl
    have isFinite (sign : Bool) (other : Magnitude) :
        (Numeral.double (.finite sign other)).IsOrdered := by simp [Numeral.IsOrdered]
    simp only [Double.add, Double.zero, zero, Int.add_zero]
    by_cases isZero : signed negative magnitude.units = 0
    · rw [if_pos isZero, place, place, isZero, Bool.and_false]
      exact ⟨isFinite _ _, rfl⟩
    · rw [if_neg isZero, Numeral.natAbs_signed, ofUnits_exact, place, place, finitePlace_inj]
      refine ⟨isFinite _ _, ?_⟩
      have same := signed_natAbs (signed negative magnitude.units) 1
      rwa [Nat.mul_one, Numeral.natAbs_signed, Nat.cast_one, mul_one] at same
  · cases negative <;> exact ⟨by simp [Double.add, Double.zero, Numeral.IsOrdered], rfl⟩
  · exact absurd rfl ordered

theorem RandomSource.lower_staysBetween : lower.StaysBetween := by
  intro low high atMost draws
  have ordered : (Numeral.double low).IsOrdered ∧ (Numeral.double high).IsOrdered := by
    constructor
    · rintro ⟨⟩
      cases high <;> exact Bool.false_ne_true atMost
    · rintro ⟨⟩
      cases low <;> exact Bool.false_ne_true atMost
  obtain ⟨sumOrdered, same⟩ := Double.add_zero ordered.1
  refine ⟨low.add .zero, draws + 1, rfl, ?_, ?_⟩
  · exact (Double.isAtMost_iff ordered.1 sumOrdered).mpr same.ge
  · rw [Double.isAtMost_iff ordered.1 ordered.2] at atMost
    exact (Double.isAtMost_iff sumOrdered ordered.2).mpr (same ▸ atMost)

end AnimationGrammar
