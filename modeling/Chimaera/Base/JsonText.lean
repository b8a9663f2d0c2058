import Chimaera.Base.Buckets
import Chimaera.Base.Quoted

/-! JSON documents and their text with sorted names. Two documents have the same text just when
they agree up to the order of the names in their objects. What a floating-point number is and how
it is printed are parameters. -/

namespace Chimaera.Base.JsonText
open Text Dictionary Buckets Quoted

inductive Json (F : Type) where
  | null
  | bool (value : Bool)
  | int (value : Int)
  | float (value : F)
  | string (value : Line)
  | array (items : List (Json F))
  | object (entries : List (Line × Json F))

abbrev Entries (F : Type) := List (Line × Json F)

/-- Floating-point numbers and their shortest text, which reads back as the same number and is
not the text of an integer. -/
structure FloatText (F : Type) where
  repr : F → Line
  finite : F → Bool
  filled : ∀ f, finite f = true → repr f ≠ []
  numerals : ∀ f, finite f = true → ∀ c ∈ repr f, numeral c = true
  injective : ∀ f g, finite f = true → finite g = true → repr f = repr g → f = g
  apart : ∀ f n, finite f = true → repr f ≠ signed n

namespace Json

section Definitions

variable {F : Type}

theorem induction {motive : Json F → Prop} (null : motive .null)
    (bool : ∀ value, motive (.bool value)) (int : ∀ value, motive (.int value))
    (float : ∀ value, motive (.float value)) (string : ∀ value, motive (.string value))
    (array : ∀ items, (∀ item ∈ items, motive item) → motive (.array items))
    (object : ∀ entries, (∀ entry ∈ entries, motive entry.2) → motive (.object entries))
    (value : Json F) : motive value :=
  @Json.rec F motive (fun items => ∀ item ∈ items, motive item)
    (fun entries => ∀ entry ∈ entries, motive entry.2) (fun entry => motive entry.2)
    null bool int float string array object
    (fun _ member => absurd member List.not_mem_nil)
    (fun _ _ head tail => List.forall_mem_cons.mpr ⟨head, tail⟩)
    (fun _ member => absurd member List.not_mem_nil)
    (fun _ _ head tail => List.forall_mem_cons.mpr ⟨head, tail⟩) (fun _ _ inside => inside) value

def isTrue : Json F → Bool
  | .bool value => value
  | _ => false

def truthy (zero : F → Bool) : Json F → Bool
  | .null => false
  | .bool value => value
  | .int value => value ≠ 0
  | .float value => !zero value
  | .string value => !value.isEmpty
  | .array items => !items.isEmpty
  | .object entries => !entries.isEmpty

mutual

def every (number : F → Bool) (names : List Line → Bool) : Json F → Bool
  | .float value => number value
  | .array items => everyItem number names items
  | .object entries => names (entries.map Prod.fst) && everyEntry number names entries
  | _ => true

def everyItem (number : F → Bool) (names : List Line → Bool) : List (Json F) → Bool
  | [] => true
  | item :: rest => every number names item && everyItem number names rest

def everyEntry (number : F → Bool) (names : List Line → Bool) : Entries F → Bool
  | [] => true
  | (_, value) :: rest => every number names value && everyEntry number names rest

end

mutual

/-- Equal documents: lists item by item, and objects as dictionaries, of one size and with a
same value under each name. -/
def Same : Json F → Json F → Prop
  | .null, .null => True
  | .bool value, .bool other => value = other
  | .int value, .int other => value = other
  | .float value, .float other => value = other
  | .string value, .string other => value = other
  | .array items, .array others => SameItems items others
  | .object entries, .object others => entries.length = others.length ∧ SameEntries entries others
  | _, _ => False

def SameItems : List (Json F) → List (Json F) → Prop
  | [], [] => True
  | item :: rest, other :: others => Same item other ∧ SameItems rest others
  | _, _ => False

def SameEntries : Entries F → Entries F → Prop
  | [], _ => True
  | (name, value) :: rest, others =>
      (∃ other, others.lookup name = some other ∧ Same value other) ∧ SameEntries rest others

end

def trailing (close : Char) : List Line → Line
  | [] => [close]
  | piece :: rest => ',' :: ' ' :: (piece ++ trailing close rest)

/-- `', '.join(pieces)` and the closing bracket. -/
def enclosed (close : Char) : List Line → Line
  | [] => [close]
  | piece :: rest => piece ++ trailing close rest

def field (entry : Line × Line) : Line := quote entry.1 ++ ':' :: ' ' :: entry.2

mutual

/-- `json.dumps(value, sort_keys=True)` -/
def render (repr : F → Line) : Json F → Line
  | .null => text "null"
  | .bool true => text "true"
  | .bool false => text "false"
  | .int value => signed value
  | .float value => repr value
  | .string value => quote value
  | .array items => '[' :: enclosed ']' (renderItems repr items)
  | .object entries =>
      '{' :: enclosed '}' ((sortByName (renderEntries repr entries)).map field)

def renderItems (repr : F → Line) : List (Json F) → List Line
  | [] => []
  | item :: rest => render repr item :: renderItems repr rest

def renderEntries (repr : F → Line) : Entries F → List (Line × Line)
  | [] => []
  | (name, value) :: rest => (name, render repr value) :: renderEntries repr rest

end

def finite (floats : FloatText F) (value : Json F) : Bool :=
  value.every floats.finite fun _ => true

def distinct (value : Json F) : Bool := value.every (fun _ => true) fun names => names.Nodup

def wellFormed (floats : FloatText F) (value : Json F) : Bool :=
  value.every floats.finite fun names => names.Nodup

/-- `json.dumps(value, sort_keys=True, allow_nan=False)` -/
def dumps (floats : FloatText F) (value : Json F) : Option Line :=
  if value.finite floats then some (value.render floats.repr) else none

theorem everyItem_eq (number : F → Bool) (names : List Line → Bool) (items : List (Json F)) :
    everyItem number names items = items.all (every number names) := by
  induction items with
  | nil => rfl
  | cons item rest ih => rw [everyItem, ih, List.all_cons]

theorem everyEntry_eq (number : F → Bool) (names : List Line → Bool) (entries : Entries F) :
    everyEntry number names entries = entries.all fun entry => every number names entry.2 := by
  induction entries with
  | nil => rfl
  | cons entry rest ih => rw [everyEntry, ih, List.all_cons]

theorem every_array {number : F → Bool} {names : List Line → Bool} {items : List (Json F)} :
    every number names (.array items) = true ↔ ∀ item ∈ items, every number names item = true := by
  rw [every, everyItem_eq, List.all_eq_true]

theorem every_object {number : F → Bool} {names : List Line → Bool} {entries : Entries F} :
    every number names (.object entries) = true ↔ names (entries.map Prod.fst) = true ∧
      ∀ entry ∈ entries, every number names entry.2 = true := by
  rw [every, everyEntry_eq, Bool.and_eq_true, List.all_eq_true]

theorem every_mono {number other : F → Bool} {names some : List Line → Bool}
    (numbers : ∀ f, number f = true → other f = true)
    (named : ∀ lines, names lines = true → some lines = true) {value : Json F}
    (passes : every number names value = true) : every other some value = true := by
  induction value using induction with
  | null | bool | int | string => rfl
  | float f => exact numbers f passes
  | array items ih =>
    rw [every_array] at passes ⊢
    exact fun item member => ih item member (passes item member)
  | object entries ih =>
    rw [every_object] at passes ⊢
    exact ⟨named _ passes.1, fun entry member => ih entry member (passes.2 entry member)⟩

theorem finite_of_wellFormed {floats : FloatText F} {value : Json F}
    (good : value.wellFormed floats = true) : value.finite floats = true :=
  every_mono (fun _ inside => inside) (fun _ _ => rfl) good

theorem wellFormed_object {floats : FloatText F} {entries : Entries F} :
    wellFormed floats (.object entries) = true ↔ (entries.map Prod.fst).Nodup ∧
      ∀ entry ∈ entries, entry.2.wellFormed floats = true := by
  rw [wellFormed, every_object, decide_eq_true_eq]
  rfl

theorem renderItems_eq (repr : F → Line) (items : List (Json F)) :
    renderItems repr items = items.map (render repr) := by
  induction items with
  | nil => rfl
  | cons item rest ih => rw [renderItems, ih, List.map_cons]

theorem renderEntries_eq (repr : F → Line) (entries : Entries F) :
    renderEntries repr entries = entries.map fun entry => (entry.1, render repr entry.2) := by
  induction entries with
  | nil => rfl
  | cons entry rest ih => rw [renderEntries, ih, List.map_cons]

theorem render_object (repr : F → Line) (entries : Entries F) :
    render repr (.object entries) =
      '{' :: enclosed '}' ((sortByName entries).map fun entry =>
        field (entry.1, render repr entry.2)) := by
  rw [render, renderEntries_eq, ← sortByName_map, List.map_map]
  rfl

theorem sameItems_iff {items others : List (Json F)} :
    SameItems items others ↔ List.Forall₂ Same items others := by
  induction items generalizing others with
  | nil =>
    cases others with
    | nil => exact ⟨fun _ => .nil, fun _ => trivial⟩
    | cons other others => exact ⟨False.elim, fun both => by cases both⟩
  | cons item rest ih =>
    cases others with
    | nil => exact ⟨False.elim, fun both => by cases both⟩
    | cons other others => rw [SameItems, ih, List.forall₂_cons]

theorem sameEntries_iff {entries others : Entries F} :
    SameEntries entries others ↔ ∀ entry ∈ entries,
      ∃ other, others.lookup entry.1 = some other ∧ Same entry.2 other := by
  induction entries with
  | nil => exact ⟨fun _ _ member => absurd member List.not_mem_nil, fun _ => trivial⟩
  | cons entry rest ih => rw [SameEntries, ih, List.forall_mem_cons]

end Definitions

/-! ## Texts that agree come from equal documents -/

section Unique

variable {F : Type}

inductive Kind where
  | null
  | bool
  | number
  | string
  | array
  | object
  | mark

def kind : Json F → Kind
  | .null => .null
  | .bool _ => .bool
  | .int _ => .number
  | .float _ => .number
  | .string _ => .string
  | .array _ => .array
  | .object _ => .object

def opens (c : Char) : Kind :=
  if numeral c then .number
  else if c = '"' then .string
  else if c = '[' then .array
  else if c = '{' then .object
  else if c = 'n' then .null
  else if c = 't' ∨ c = 'f' then .bool
  else .mark

theorem opens_numerals {line : Line} (filled : line ≠ []) (all : ∀ c ∈ line, numeral c = true) :
    ∃ c rest, line = c :: rest ∧ opens c = .number := by
  cases line with
  | nil => exact absurd rfl filled
  | cons c rest => exact ⟨c, rest, rfl, if_pos (all c List.mem_cons_self)⟩

theorem render_opens {floats : FloatText F} {value : Json F}
    (good : value.wellFormed floats = true) :
    ∃ c rest, value.render floats.repr = c :: rest ∧ opens c = value.kind := by
  cases value with
  | null => exact ⟨'n', _, rfl, rfl⟩
  | bool value =>
    cases value with
    | false => exact ⟨'f', _, rfl, rfl⟩
    | true => exact ⟨'t', _, rfl, rfl⟩
  | int n => exact opens_numerals (signed_numeral n).1 (signed_numeral n).2
  | float f => exact opens_numerals (floats.filled f good) (floats.numerals f good)
  | string line => exact ⟨'"', _, rfl, rfl⟩
  | array items => exact ⟨'[', _, rfl, rfl⟩
  | object entries => exact ⟨'{', _, rfl, rfl⟩

theorem kind_eq {floats : FloatText F} {value other : Json F} {rest final : Line}
    (good : value.wellFormed floats = true) (fine : other.wellFormed floats = true)
    (same : value.render floats.repr ++ rest = other.render floats.repr ++ final) :
    value.kind = other.kind := by
  obtain ⟨c, tail, shape, opening⟩ := render_opens good
  obtain ⟨d, last, form, beginning⟩ := render_opens fine
  rw [shape, form] at same
  rw [← opening, ← beginning, (List.cons.inj same).1]

/-- What a text may be followed by: nothing that continues a number. -/
abbrev Ends (rest : Line) : Prop := Stops numeral rest

theorem trailing_ends {close : Char} (stop : numeral close = false) (pieces : List Line)
    (rest : Line) : Ends (trailing close pieces ++ rest) := by
  cases pieces with
  | nil => exact stops_cons stop _
  | cons piece pieces => exact stops_cons (by decide) _

section Pieces

variable {α β : Type} {related : α → β → Prop} {write : α → Line} {print : β → Line}
  {close : Char}

theorem trailing_unique (stop : numeral close = false) (comma : close ≠ ',') {items : List α}
    {others : List β} {rest final : Line}
    (each : ∀ item ∈ items, ∀ other ∈ others, ∀ rest final, Ends rest → Ends final →
      write item ++ rest = print other ++ final → related item other ∧ rest = final)
    (same : trailing close (items.map write) ++ rest = trailing close (others.map print) ++ final) :
    List.Forall₂ related items others ∧ rest = final := by
  induction items generalizing others with
  | nil =>
    cases others with
    | nil => exact ⟨.nil, (List.cons.inj same).2⟩
    | cons other others => exact absurd (List.cons.inj same).1 comma
  | cons item items ih =>
    cases others with
    | nil => exact absurd (List.cons.inj same).1.symm comma
    | cons other others =>
      rw [List.map_cons, List.map_cons, trailing, trailing, List.cons_append, List.cons_append,
        List.cons_append, List.cons_append, List.append_assoc, List.append_assoc] at same
      have pieces := (List.cons.inj (List.cons.inj same).2).2
      obtain ⟨first, later⟩ := each item List.mem_cons_self other List.mem_cons_self _ _
        (trailing_ends stop _ _) (trailing_ends stop _ _) pieces
      obtain ⟨tails, done⟩ := ih (fun item member other inside =>
        each item (List.mem_cons_of_mem _ member) other (List.mem_cons_of_mem _ inside)) later
      exact ⟨.cons first tails, done⟩

theorem enclosed_unique (stop : numeral close = false) (comma : close ≠ ',') {items : List α}
    {others : List β} {rest final : Line}
    (heads : ∀ item ∈ items, ∃ c tail, write item = c :: tail ∧ c ≠ close)
    (starts : ∀ other ∈ others, ∃ c tail, print other = c :: tail ∧ c ≠ close)
    (each : ∀ item ∈ items, ∀ other ∈ others, ∀ rest final, Ends rest → Ends final →
      write item ++ rest = print other ++ final → related item other ∧ rest = final)
    (same : enclosed close (items.map write) ++ rest = enclosed close (others.map print) ++ final) :
    List.Forall₂ related items others ∧ rest = final := by
  cases items with
  | nil =>
    cases others with
    | nil => exact ⟨.nil, (List.cons.inj same).2⟩
    | cons other others =>
      obtain ⟨c, tail, shape, inside⟩ := starts other List.mem_cons_self
      rw [List.map_cons, enclosed, shape] at same
      exact absurd (List.cons.inj same).1.symm inside
  | cons item items =>
    cases others with
    | nil =>
      obtain ⟨c, tail, shape, inside⟩ := heads item List.mem_cons_self
      rw [List.map_cons, enclosed, shape] at same
      exact absurd (List.cons.inj same).1 inside
    | cons other others =>
      rw [List.map_cons, List.map_cons, enclosed, enclosed, List.append_assoc,
        List.append_assoc] at same
      obtain ⟨first, later⟩ := each item List.mem_cons_self other List.mem_cons_self _ _
        (trailing_ends stop _ _) (trailing_ends stop _ _) same
      obtain ⟨tails, done⟩ := trailing_unique stop comma (fun item member other inside =>
        each item (List.mem_cons_of_mem _ member) other (List.mem_cons_of_mem _ inside)) later
      exact ⟨.cons first tails, done⟩

end Pieces

theorem field_unique {first second : Line × Line} {rest final : Line}
    (same : field first ++ rest = field second ++ final) :
    first.1 = second.1 ∧ first.2 ++ rest = second.2 ++ final := by
  unfold field at same
  rw [List.append_assoc, List.append_assoc] at same
  obtain ⟨names, values⟩ := quote_unique same
  exact ⟨names, (List.cons.inj (List.cons.inj values).2).2⟩

theorem same_object_of_sorted {entries others : Entries F}
    (distinct : (others.map Prod.fst).Nodup)
    (sorted : List.Forall₂ (fun entry other => entry.1 = other.1 ∧ Same entry.2 other.2)
      (sortByName entries) (sortByName others)) : Same (.object entries) (.object others) := by
  refine ⟨?_, sameEntries_iff.mpr ?_⟩
  · rw [← (sortByName_perm entries).length_eq, sorted.length_eq,
      (sortByName_perm others).length_eq]
  · intro entry member
    obtain ⟨i, bound, rfl⟩ :=
      List.mem_iff_getElem.mp ((sortByName_perm entries).mem_iff.mpr member)
    have limit : i < (sortByName others).length := sorted.length_eq ▸ bound
    obtain ⟨name, value⟩ := sorted.get bound limit
    refine ⟨_, lookup_of_mem distinct ?_, value⟩
    rw [List.get_eq_getElem, List.get_eq_getElem] at name
    rw [name]
    exact (sortByName_perm others).mem_iff.mp (List.getElem_mem limit)

theorem render_unique {floats : FloatText F} {value : Json F} :
    ∀ {other : Json F} {rest final : Line}, value.wellFormed floats = true →
      other.wellFormed floats = true → Ends rest → Ends final →
      value.render floats.repr ++ rest = other.render floats.repr ++ final →
      Same value other ∧ rest = final := by
  induction value using induction with
  | null =>
    intro other rest final good fine ends stops same
    have kinds := kind_eq good fine same
    cases other with
    | null => exact ⟨trivial, List.append_cancel_left same⟩
    | _ => cases kinds
  | bool value =>
    intro other rest final good fine ends stops same
    have kinds := kind_eq good fine same
    cases other with
    | bool other =>
      cases value with
      | false =>
        cases other with
        | false => exact ⟨rfl, List.append_cancel_left same⟩
        | true => exact absurd (List.cons.inj same).1 (by decide)
      | true =>
        cases other with
        | false => exact absurd (List.cons.inj same).1 (by decide)
        | true => exact ⟨rfl, List.append_cancel_left same⟩
    | _ => cases kinds
  | int n =>
    intro other rest final good fine ends stops same
    have kinds := kind_eq good fine same
    cases other with
    | int m =>
      obtain ⟨texts, done⟩ :=
        numeral_unique (signed_numeral n).2 (signed_numeral m).2 ends stops same
      exact ⟨signed_injective texts, done⟩
    | float f =>
      obtain ⟨texts, -⟩ :=
        numeral_unique (signed_numeral n).2 (floats.numerals f fine) ends stops same
      exact absurd texts.symm (floats.apart f n fine)
    | _ => cases kinds
  | float f =>
    intro other rest final good fine ends stops same
    have kinds := kind_eq good fine same
    cases other with
    | int m =>
      obtain ⟨texts, -⟩ :=
        numeral_unique (floats.numerals f good) (signed_numeral m).2 ends stops same
      exact absurd texts (floats.apart f m good)
    | float g =>
      obtain ⟨texts, done⟩ :=
        numeral_unique (floats.numerals f good) (floats.numerals g fine) ends stops same
      exact ⟨floats.injective f g good fine texts, done⟩
    | _ => cases kinds
  | string line =>
    intro other rest final good fine ends stops same
    have kinds := kind_eq good fine same
    cases other with
    | string other => exact quote_unique same
    | _ => cases kinds
  | array items ih =>
    intro other rest final good fine ends stops same
    have kinds := kind_eq good fine same
    cases other with
    | array others =>
      have items_good := every_array.mp good
      have others_fine := every_array.mp fine
      have within := (List.cons.inj same).2
      rw [renderItems_eq, renderItems_eq] at within
      have heads : ∀ value : Json F, value.wellFormed floats = true →
          ∃ c tail, value.render floats.repr = c :: tail ∧ c ≠ ']' := by
        intro value whole
        obtain ⟨c, tail, shape, opening⟩ := render_opens whole
        refine ⟨c, tail, shape, ?_⟩
        rintro rfl
        cases value <;> cases opening
      obtain ⟨all, done⟩ := enclosed_unique (by decide) (by decide)
        (fun item member => heads item (items_good item member))
        (fun other member => heads other (others_fine other member))
        (fun item member other inside rest final ends stops equal =>
          ih item member (items_good item member) (others_fine other inside) ends stops equal)
        within
      exact ⟨sameItems_iff.mpr all, done⟩
    | _ => cases kinds
  | object entries ih =>
    intro other rest final good fine ends stops same
    have kinds := kind_eq good fine same
    cases other with
    | object others =>
      obtain ⟨-, entries_good⟩ := wellFormed_object.mp good
      obtain ⟨distinct, others_fine⟩ := wellFormed_object.mp fine
      rw [render_object, render_object] at same
      have each : ∀ entry ∈ sortByName entries, ∀ other ∈ sortByName others, ∀ rest final,
          Ends rest → Ends final → field (entry.1, entry.2.render floats.repr) ++ rest =
            field (other.1, other.2.render floats.repr) ++ final →
          (entry.1 = other.1 ∧ Same entry.2 other.2) ∧ rest = final := by
        intro entry member other inside rest final ends stops equal
        have early := (sortByName_perm entries).mem_iff.mp member
        have late := (sortByName_perm others).mem_iff.mp inside
        obtain ⟨names, values⟩ := field_unique equal
        obtain ⟨value, done⟩ := ih entry early (entries_good entry early)
          (others_fine other late) ends stops values
        exact ⟨⟨names, value⟩, done⟩
      obtain ⟨all, done⟩ := enclosed_unique (by decide) (by decide)
        (fun _ _ => ⟨'"', _, rfl, by decide⟩) (fun _ _ => ⟨'"', _, rfl, by decide⟩)
        each (List.cons.inj same).2
      exact ⟨same_object_of_sorted distinct all, done⟩
    | _ => cases kinds

end Unique

/-! ## Equal documents have one text -/

section Same

variable {F : Type}

theorem rel_none {first second : Option (Json F)} (related : Option.Rel Same first second) :
    first = none ↔ second = none := by
  cases related with
  | none => exact Iff.rfl
  | some => exact ⟨fun none => absurd none (Option.some_ne_none _),
      fun none => absurd none (Option.some_ne_none _)⟩

theorem names_perm {entries others : Entries F} (distinct : (entries.map Prod.fst).Nodup)
    (same : Same (.object entries) (.object others)) :
    (entries.map Prod.fst).Perm (others.map Prod.fst) := by
  obtain ⟨sizes, values⟩ := same
  have inside : entries.map Prod.fst ⊆ others.map Prod.fst := by
    intro name member
    obtain ⟨entry, present, rfl⟩ := List.mem_map.mp member
    obtain ⟨other, found, -⟩ := sameEntries_iff.mp values entry present
    exact List.mem_map.mpr ⟨(entry.1, other), mem_of_lookup found, rfl⟩
  apply (List.subperm_of_subset distinct inside).perm_of_length_le
  rw [List.length_map, List.length_map, sizes]

theorem same_object_iff {entries others : Entries F} (distinct : (entries.map Prod.fst).Nodup)
    (apart : (others.map Prod.fst).Nodup) :
    Same (.object entries) (.object others) ↔
      ∀ name, Option.Rel Same (entries.lookup name) (others.lookup name) := by
  constructor
  · intro same name
    cases found : entries.lookup name with
    | none =>
      have absent := lookup_eq_none.mp found
      rw [(names_perm distinct same).mem_iff, ← lookup_eq_none] at absent
      rw [absent]
      exact .none
    | some value =>
      obtain ⟨other, present, equal⟩ := sameEntries_iff.mp same.2 _ (mem_of_lookup found)
      rw [present]
      exact .some equal
  · intro related
    have names : (entries.map Prod.fst).Perm (others.map Prod.fst) := by
      rw [List.perm_ext_iff_of_nodup distinct apart]
      intro name
      apply not_iff_not.mp
      rw [← lookup_eq_none, ← lookup_eq_none]
      exact rel_none (related name)
    refine ⟨by simpa only [List.length_map] using names.length_eq, sameEntries_iff.mpr ?_⟩
    intro entry member
    have one := related entry.1
    rw [lookup_of_mem distinct member] at one
    cases found : others.lookup entry.1 with
    | none =>
      rw [found] at one
      cases one
    | some other =>
      rw [found] at one
      cases one with
      | some equal => exact ⟨other, rfl, equal⟩

theorem render_same {floats : FloatText F} {value : Json F} :
    ∀ {other : Json F}, value.wellFormed floats = true → other.wellFormed floats = true →
      Same value other → value.render floats.repr = other.render floats.repr := by
  induction value using induction with
  | null =>
    intro other good fine same
    cases other with
    | null => rfl
    | _ => exact absurd same id
  | bool | int | float | string =>
    intro other good fine same
    cases other with
    | bool | int | float | string => first | exact absurd same id | (cases same; rfl)
    | _ => exact absurd same id
  | array items ih =>
    intro other good fine same
    cases other with
    | array others =>
      have items_good := every_array.mp good
      have others_fine := every_array.mp fine
      have all := sameItems_iff.mp same
      have texts : items.map (render floats.repr) = others.map (render floats.repr) := by
        apply List.ext_getElem
        · rw [List.length_map, List.length_map, all.length_eq]
        · intro i early late
          rw [List.length_map] at early late
          rw [List.getElem_map, List.getElem_map]
          exact ih _ (List.getElem_mem early) (items_good _ (List.getElem_mem early))
            (others_fine _ (List.getElem_mem late)) (all.get early late)
      rw [render, render, renderItems_eq, renderItems_eq, texts]
    | _ => exact absurd same id
  | object entries ih =>
    intro other good fine same
    cases other with
    | object others =>
      obtain ⟨distinct, entries_good⟩ := wellFormed_object.mp good
      obtain ⟨apart, others_fine⟩ := wellFormed_object.mp fine
      have inside : renderEntries floats.repr entries ⊆ renderEntries floats.repr others := by
        rw [renderEntries_eq, renderEntries_eq]
        intro written member
        obtain ⟨entry, present, rfl⟩ := List.mem_map.mp member
        obtain ⟨other, found, equal⟩ := sameEntries_iff.mp same.2 entry present
        have there := mem_of_lookup found
        refine List.mem_map.mpr ⟨_, there, ?_⟩
        rw [ih entry present (entries_good entry present) (others_fine _ there) equal]
      have names : (renderEntries floats.repr entries).map Prod.fst = entries.map Prod.fst := by
        rw [renderEntries_eq, List.map_map]
        rfl
      have sizes : (renderEntries floats.repr others).length ≤
          (renderEntries floats.repr entries).length := by
        rw [renderEntries_eq, renderEntries_eq, List.length_map, List.length_map, same.1]
      have written : ((renderEntries floats.repr entries).map Prod.fst).Nodup := names ▸ distinct
      have order := (List.subperm_of_subset written.of_map inside).perm_of_length_le sizes
      rw [render, render, sortByName_eq order written]
    | _ => exact absurd same id

theorem render_eq_iff {floats : FloatText F} {value other : Json F}
    (good : value.wellFormed floats = true) (fine : other.wellFormed floats = true) :
    value.render floats.repr = other.render floats.repr ↔ Same value other := by
  refine ⟨fun same => ?_, render_same good fine⟩
  have extended : value.render floats.repr ++ [] = other.render floats.repr ++ [] := by rw [same]
  exact (render_unique good fine (stops_nil _) (stops_nil _) extended).1

end Same
end Json
end Chimaera.Base.JsonText
