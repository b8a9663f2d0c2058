import Chimaera.Benchmark.Comparison

/-! Cleaning and flattening of records. On records of one level, with top-level names that have
no dot, the flattened record determines the nested one. -/

namespace Chimaera.Benchmark.Comparison
open Base.Text Base.Dictionary Base.JsonText Base.JsonText.Json

section

variable {F : Type}

/-! ## Cleaning -/

theorem cleanItems_eq (finite : F → Bool) (items : List (Json F)) :
    cleanItems finite items = items.map (clean finite) := by
  induction items with
  | nil => rfl
  | cons item rest ih => rw [cleanItems, ih, List.map_cons]

theorem cleanEntries_eq (finite : F → Bool) (entries : Entries F) :
    cleanEntries finite entries = entries.map fun entry => (entry.1, clean finite entry.2) := by
  induction entries with
  | nil => rfl
  | cons entry rest ih => rw [cleanEntries, ih, List.map_cons]

theorem clean_finite {floats : FloatText F} {value : Json F}
    (good : value.finite floats = true) : clean floats.finite value = value := by
  induction value using Json.induction with
  | null | bool | int | string => rfl
  | float f => exact if_pos good
  | array items ih =>
    have each := every_array.mp good
    rw [clean, cleanItems_eq, List.map_congr_left fun item member => ih item member
      (each item member), List.map_id']
  | object entries ih =>
    have each := (every_object.mp good).2
    have kept : ∀ entry ∈ entries, (entry.1, clean floats.finite entry.2) = entry :=
      fun entry member => Prod.ext rfl (ih entry member (each entry member))
    rw [clean, cleanEntries_eq, List.map_congr_left kept, List.map_id']

theorem every_clean {finite : F → Bool} {names : List Line → Bool} {value : Json F}
    (named : value.every (fun _ => true) names = true) :
    (clean finite value).every finite names = true := by
  induction value using Json.induction with
  | null | bool | int | string => rfl
  | float f =>
    rw [clean]
    split_ifs with inside
    · exact inside
    · rfl
  | array items ih =>
    rw [every_array] at named
    rw [clean, cleanItems_eq, every_array]
    intro item member
    obtain ⟨source, inside, rfl⟩ := List.mem_map.mp member
    exact ih source inside (named source inside)
  | object entries ih =>
    rw [every_object] at named
    rw [clean, cleanEntries_eq, every_object, List.map_map]
    refine ⟨named.1, ?_⟩
    intro entry member
    obtain ⟨source, inside, rfl⟩ := List.mem_map.mp member
    exact ih source inside (named.2 source inside)

theorem every_true (value : Json F) : value.every (fun _ => true) (fun _ => true) = true := by
  induction value using Json.induction with
  | null | bool | int | float | string => rfl
  | array items ih => exact every_array.mpr ih
  | object entries ih => exact every_object.mpr ⟨rfl, ih⟩

/-! ## Flattening -/

def isObject : Json F → Bool
  | .object _ => true
  | _ => false

def oneLevel : Json F → Bool
  | .object entries => !entries.isEmpty && entries.all fun entry => !isObject entry.2
  | _ => true

structure Nested (python : Python F) (entries : Entries F) : Prop where
  distinct : (entries.map Prod.fst).Nodup
  named : ∀ entry ∈ entries, entry.1 ≠ [] ∧ '.' ∉ entry.1
  level : ∀ entry ∈ entries, oneLevel entry.2 = true
  wellFormed : ∀ entry ∈ entries, entry.2.wellFormed python.toFloatText = true

def leaves (name : Line) : Json F → Entries F
  | .object entries => entries.map fun entry => (name ++ '.' :: entry.1, entry.2)
  | item => [(name, item)]

def plain : Json F → Option (Json F)
  | .object _ => none
  | item => some item

def below (key : Line) : Json F → Option (Json F)
  | .object entries => entries.lookup key
  | _ => none

theorem object_or_plain (item : Json F) :
    (∃ entries, item = .object entries) ∨ isObject item = false := by
  cases item with
  | object entries => exact Or.inl ⟨entries, rfl⟩
  | _ => exact Or.inr rfl

section Plain

variable {item : Json F} (single : isObject item = false)
include single

theorem flattenItem_plain (name : Line) (result : Entries F) :
    flattenItem name result item = assign result name item := by
  cases item with
  | object entries => cases single
  | _ => rfl

theorem leaves_plain (name : Line) : leaves name item = [(name, item)] := by
  cases item with
  | object entries => cases single
  | _ => rfl

theorem plain_plain : plain item = some item := by
  cases item with
  | object entries => cases single
  | _ => rfl

theorem below_plain (key : Line) : below key item = none := by
  cases item with
  | object entries => cases single
  | _ => rfl

end Plain

theorem distinct_flattenFrom (parent : Line) {result : Entries F}
    (distinct : (result.map Prod.fst).Nodup) (entries : Entries F) :
    ((flattenFrom parent result entries).map Prod.fst).Nodup := by
  induction entries generalizing result with
  | nil => exact distinct
  | cons entry rest ih =>
    obtain ⟨key, item⟩ := entry
    rw [flattenFrom]
    apply ih
    rcases object_or_plain item with ⟨inside, rfl⟩ | single
    · exact distinct_update distinct _
    · rw [flattenItem_plain single]
      exact distinct_assign distinct _ _

theorem distinct_flatten (entries : Entries F) : ((flatten entries []).map Prod.fst).Nodup := by
  apply distinct_flattenFrom
  exact List.nodup_nil

theorem flattenFrom_level {parent : Line} (filled : parent ≠ []) {entries : Entries F}
    (level : ∀ entry ∈ entries, isObject entry.2 = false) (result : Entries F) :
    flattenFrom parent result entries =
      update result (entries.map fun entry => (parent ++ '.' :: entry.1, entry.2)) := by
  induction entries generalizing result with
  | nil => rfl
  | cons entry rest ih =>
    obtain ⟨key, item⟩ := entry
    obtain ⟨first, later⟩ := List.forall_mem_cons.mp level
    have name : dotted parent key = parent ++ '.' :: key := by
      rw [dotted, if_neg (by simpa using filled)]
    rw [flattenFrom, name, flattenItem_plain first, ih later]
    rfl

theorem distinct_leaves (name : Line) {item : Json F} {floats : FloatText F}
    (good : item.wellFormed floats = true) : ((leaves name item).map Prod.fst).Nodup := by
  rcases object_or_plain item with ⟨entries, rfl⟩ | single
  · have shape : (leaves name (.object entries)).map Prod.fst =
        (entries.map Prod.fst).map fun key => name ++ '.' :: key := by
      rw [leaves, List.map_map, List.map_map]
      rfl
    rw [shape]
    apply (wellFormed_object.mp good).1.map
    intro first second same
    exact (List.cons.inj (List.append_cancel_left same)).2
  · rw [leaves_plain single]
    exact List.pairwise_singleton _ _

theorem lookup_flattenItem {name : Line} (filled : name ≠ []) {item : Json F}
    (level : oneLevel item = true) {floats : FloatText F}
    (good : item.wellFormed floats = true) (result : Entries F) (query : Line) :
    (flattenItem name result item).lookup query =
      ((leaves name item).lookup query).or (result.lookup query) := by
  have names := distinct_leaves name good
  rcases object_or_plain item with ⟨entries, rfl⟩ | single
  · rw [oneLevel, Bool.and_eq_true, List.all_eq_true] at level
    have inside : ∀ entry ∈ entries, isObject entry.2 = false := fun entry member =>
      (Bool.not_eq_true' _).mp (level.2 entry member)
    have empty : (([] : Entries F).map Prod.fst).Nodup := List.nodup_nil
    rw [leaves] at names ⊢
    rw [flattenItem, flattenFrom_level filled inside, lookup_update (distinct_update empty _),
      lookup_update names, List.lookup_nil, Option.or_none]
  · rw [flattenItem_plain single, leaves_plain single, lookup_assign, lookup_cons]
    split_ifs with same
    · rfl
    · rfl

variable {python : Python F} {entries : Entries F}

theorem lookup_flattenFrom 
    (nested : Nested python entries) {key query : Line} {view : Json F → Option (Json F)}
    (leaf : ∀ entry ∈ entries, (leaves entry.1 entry.2).lookup query =
      if key = entry.1 then view entry.2 else none) (result : Entries F) :
    (flattenFrom [] result entries).lookup query =
      ((entries.lookup key).bind view).or (result.lookup query) := by
  induction entries generalizing result with
  | nil => rfl
  | cons entry rest ih =>
    obtain ⟨name, item⟩ := entry
    obtain ⟨fresh, distinct⟩ := List.nodup_cons.mp nested.distinct
    obtain ⟨⟨filled, -⟩, named⟩ := List.forall_mem_cons.mp nested.named
    obtain ⟨level, levels⟩ := List.forall_mem_cons.mp nested.level
    obtain ⟨good, goods⟩ := List.forall_mem_cons.mp nested.wellFormed
    obtain ⟨here, later⟩ := List.forall_mem_cons.mp leaf
    rw [flattenFrom, ih ⟨distinct, named, levels, goods⟩ later]
    have top : dotted [] name = name := rfl
    rw [top, lookup_flattenItem filled level good, here, lookup_cons]
    by_cases same : key = name
    · rw [if_pos same, if_pos same, same, lookup_eq_none.mpr fresh]
      rfl
    · rw [if_neg same, if_neg same]
      rfl

theorem lookup_dotted (parent : Line) (entries : Entries F) (key : Line) :
    (entries.map fun entry => (parent ++ '.' :: entry.1, entry.2)).lookup (parent ++ '.' :: key) =
      entries.lookup key := by
  induction entries with
  | nil => rfl
  | cons entry rest ih =>
    obtain ⟨name, item⟩ := entry
    rw [List.map_cons, lookup_cons, lookup_cons, ih]
    simp only [List.append_cancel_left_eq, List.cons.injEq, true_and]

theorem lookup_plain (nested : Nested python entries) {key : Line} (clear : '.' ∉ key) :
    (flatten entries []).lookup key = (entries.lookup key).bind plain := by
  have leaf : ∀ entry ∈ entries, (leaves entry.1 entry.2).lookup key =
      if key = entry.1 then plain entry.2 else none := by
    intro entry member
    rcases object_or_plain entry.2 with ⟨inside, item⟩ | single
    · have absent : key ∉ (leaves entry.1 (.object inside)).map Prod.fst := by
        intro present
        rw [leaves, List.map_map] at present
        obtain ⟨leaf, -, rfl⟩ := List.mem_map.mp present
        exact clear (List.mem_append_right _ List.mem_cons_self)
      rw [item, lookup_eq_none.mpr absent, plain, ite_self]
    · rw [leaves_plain single, plain_plain single, lookup_cons]
      rfl
  rw [flatten, lookup_flattenFrom nested leaf, List.lookup_nil, Option.or_none]

theorem lookup_below (nested : Nested python entries)
    {key : Line} (clear : '.' ∉ key) (sub : Line) :
    (flatten entries []).lookup (key ++ '.' :: sub) = (entries.lookup key).bind (below sub) := by
  have leaf : ∀ entry ∈ entries, (leaves entry.1 entry.2).lookup (key ++ '.' :: sub) =
      if key = entry.1 then below sub entry.2 else none := by
    intro entry member
    have unmarked := (nested.named entry member).2
    rcases object_or_plain entry.2 with ⟨inside, item⟩ | single
    · rw [item]
      by_cases same : key = entry.1
      · rw [if_pos same, same, leaves, below, lookup_dotted]
      · have absent : key ++ '.' :: sub ∉ (leaves entry.1 (.object inside)).map Prod.fst := by
          intro present
          rw [leaves, List.map_map] at present
          obtain ⟨leaf, -, equal⟩ := List.mem_map.mp present
          exact same (append_mark_inj unmarked clear equal).1.symm
        rw [if_neg same, lookup_eq_none.mpr absent]
    · have apart : key ++ '.' :: sub ≠ entry.1 := by
        intro equal
        exact unmarked (equal ▸ List.mem_append_right _ List.mem_cons_self)
      rw [leaves_plain single, below_plain single, lookup_cons, if_neg apart, ite_self]
      rfl
  rw [flatten, lookup_flattenFrom nested leaf, List.lookup_nil, Option.or_none]

theorem plain_or_dotted (name : Line) :
    '.' ∉ name ∨ ∃ key sub, '.' ∉ key ∧ name = key ++ '.' :: sub := by
  by_cases dot : '.' ∈ name
  · obtain ⟨key, sub, shape, clear⟩ := List.eq_append_cons_of_mem dot
    exact Or.inr ⟨key, sub, clear, shape⟩
  · exact Or.inl dot

theorem Nested.of_lookup {key : Line} {item : Json F}
    (nested : Nested python entries) (found : entries.lookup key = some item) :
    '.' ∉ key ∧ oneLevel item = true ∧ item.wellFormed python.toFloatText = true := by
  have member := mem_of_lookup found
  exact ⟨(nested.named _ member).2, nested.level _ member, nested.wellFormed _ member⟩

theorem Nested.flatten_wellFormed (nested : Nested python entries) :
    (Json.object (flatten entries [])).wellFormed python.toFloatText = true := by
  refine wellFormed_object.mpr ⟨distinct_flatten entries, ?_⟩
  rintro ⟨name, value⟩ member
  have found := lookup_of_mem (distinct_flatten entries) member
  rcases plain_or_dotted name with clear | ⟨key, sub, clear, rfl⟩
  · rw [lookup_plain nested clear] at found
    obtain ⟨item, present, view⟩ := Option.bind_eq_some_iff.mp found
    obtain ⟨-, -, good⟩ := nested.of_lookup present
    rcases object_or_plain item with ⟨inside, rfl⟩ | single
    · cases view
    · rw [plain_plain single] at view
      exact Option.some.inj view ▸ good
  · rw [lookup_below nested clear] at found
    obtain ⟨item, present, view⟩ := Option.bind_eq_some_iff.mp found
    obtain ⟨-, -, good⟩ := nested.of_lookup present
    rcases object_or_plain item with ⟨inside, rfl⟩ | single
    · rw [below] at view
      exact (wellFormed_object.mp good).2 (sub, value) (mem_of_lookup view)
    · rw [below_plain single] at view
      cases view

/-! ### Equal views are equal values -/

theorem same_isObject {first second : Json F} (same : Same first second) :
    isObject first = isObject second := by
  cases first with
  | object entries =>
    cases second with
    | object others => rfl
    | _ => exact absurd same id
  | _ =>
    cases second with
    | object others => exact absurd same id
    | _ => rfl

/-- Two values that agree under the names they flatten to are equal, as both are there. -/
theorem rel_of_views {floats : FloatText F} {first second : Option (Json F)}
    (level : ∀ item, first = some item → oneLevel item = true ∧ item.wellFormed floats = true)
    (others : ∀ item, second = some item → oneLevel item = true ∧ item.wellFormed floats = true)
    (plains : Option.Rel Same (first.bind plain) (second.bind plain))
    (belows : ∀ sub, Option.Rel Same (first.bind (below sub)) (second.bind (below sub))) :
    Option.Rel Same first second := by
  -- A value that is there shows under one of its names.
  have shows : ∀ item : Json F, oneLevel item = true ∧ item.wellFormed floats = true →
      plain item ≠ none ∨ ∃ sub, below sub item ≠ none := by
    intro item ⟨one, good⟩
    rcases object_or_plain item with ⟨entries, rfl⟩ | single
    · rw [oneLevel, Bool.and_eq_true] at one
      cases entries with
      | nil => cases one.1
      | cons entry rest =>
        refine Or.inr ⟨entry.1, ?_⟩
        rw [below, lookup_cons, if_pos rfl]
        exact Option.some_ne_none _
    · rw [plain_plain single]
      exact Or.inl (Option.some_ne_none _)
  cases first with
  | none =>
    cases second with
    | none => exact .none
    | some item =>
      rcases shows item (others item rfl) with here | ⟨sub, there⟩
      · exact absurd ((rel_none plains).mp rfl) here
      · exact absurd ((rel_none (belows sub)).mp rfl) there
  | some item =>
    cases second with
    | none =>
      rcases shows item (level item rfl) with here | ⟨sub, there⟩
      · exact absurd ((rel_none plains).mpr rfl) here
      · exact absurd ((rel_none (belows sub)).mpr rfl) there
    | some other =>
      rw [Option.bind_some, Option.bind_some] at plains
      rcases object_or_plain item with ⟨entries, rfl⟩ | single
      · rcases object_or_plain other with ⟨rest, rfl⟩ | alone
        · have distinct := (wellFormed_object.mp (level _ rfl).2).1
          have apart := (wellFormed_object.mp (others _ rfl).2).1
          exact .some ((same_object_iff distinct apart).mpr belows)
        · rw [plain_plain alone] at plains
          exact absurd ((rel_none plains).mp rfl) (Option.some_ne_none _)
      · rw [plain_plain single] at plains
        rcases object_or_plain other with ⟨rest, rfl⟩ | alone
        · exact absurd ((rel_none plains).mpr rfl) (Option.some_ne_none _)
        · rw [plain_plain alone] at plains
          exact plains

theorem views_of_rel {floats : FloatText F} {first second : Option (Json F)}
    (level : ∀ item, first = some item → item.wellFormed floats = true)
    (others : ∀ item, second = some item → item.wellFormed floats = true)
    (related : Option.Rel Same first second) :
    Option.Rel Same (first.bind plain) (second.bind plain) ∧
      ∀ sub, Option.Rel Same (first.bind (below sub)) (second.bind (below sub)) := by
  cases related with
  | none => exact ⟨.none, fun _ => .none⟩
  | @some item other same =>
    have kinds := same_isObject same
    rcases object_or_plain item with ⟨entries, rfl⟩ | single
    · rcases object_or_plain other with ⟨rest, rfl⟩ | alone
      · have distinct := (wellFormed_object.mp (level _ rfl)).1
        have apart := (wellFormed_object.mp (others _ rfl)).1
        exact ⟨.none, (same_object_iff distinct apart).mp same⟩
      · rw [alone] at kinds
        cases kinds
    · have alone : isObject other = false := kinds ▸ single
      simp only [Option.bind_some, plain_plain single, plain_plain alone, below_plain single,
        below_plain alone]
      exact ⟨.some same, fun _ => .none⟩

theorem same_flatten_iff {first second : Entries F}
    (nested : Nested python first) (other : Nested python second) :
    Same (.object (flatten first [])) (.object (flatten second [])) ↔
      Same (.object first) (.object second) := by
  rw [same_object_iff (distinct_flatten first) (distinct_flatten second),
    same_object_iff nested.distinct other.distinct]
  constructor
  · intro related key
    by_cases clear : '.' ∉ key
    · refine rel_of_views (fun item found => (nested.of_lookup found).2)
        (fun item found => (other.of_lookup found).2) ?_ fun sub => ?_
      · rw [← lookup_plain nested clear, ← lookup_plain other clear]
        exact related key
      · rw [← lookup_below nested clear, ← lookup_below other clear]
        exact related (key ++ '.' :: sub)
    · have absent : ∀ entries : Entries F, Nested python entries → entries.lookup key = none := by
        intro entries whole
        cases found : entries.lookup key with
        | none => rfl
        | some item => exact absurd (whole.of_lookup found).1 clear
      rw [absent first nested, absent second other]
      exact .none
  · intro related name
    rcases plain_or_dotted name with clear | ⟨key, sub, clear, rfl⟩
    · rw [lookup_plain nested clear, lookup_plain other clear]
      exact (views_of_rel (fun item found => (nested.of_lookup found).2.2)
        (fun item found => (other.of_lookup found).2.2) (related name)).1
    · rw [lookup_below nested clear, lookup_below other clear]
      exact (views_of_rel (fun item found => (nested.of_lookup found).2.2)
        (fun item found => (other.of_lookup found).2.2) (related key)).2 sub

end
end Chimaera.Benchmark.Comparison
