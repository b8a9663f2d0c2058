import Mathlib.Data.List.Infix
import Chimaera.Base.JsonText

/-! The values a session manifest is made of: what `json.loads` returns, the checks that
`manifest.py` makes on them, and the pure paths of `pathlib`. -/

namespace Chimaera.Session
open Base.Text

inductive FloatValue where
  | finite (value : Rat)
  | infinite (negative : Bool)
  | nan
  deriving DecidableEq, Repr

/-- What `json.loads` returns. An object lists the items of the dictionary, which has every
name once. -/
abbrev Json := Base.JsonText.Json FloatValue

abbrev Entries := List (Line × Json)

def Json.truthy (value : Json) : Bool :=
  Base.JsonText.Json.truthy (fun number => number = .finite 0) value

def Json.equalsOne : Json → Bool
  | .bool value => value
  | .int value => value = 1
  | .float (.finite value) => value = 1
  | _ => false

def printed (n : Int) : Line := if n < 0 then '-' :: decimal n.natAbs else decimal n.natAbs

def printedNames (names : List Line) : Line :=
  text "[" ++ (text ", ").intercalate (names.map fun name => text "'" ++ name ++ text "'") ++
    text "]"

def fields (value : Json) (allowed required : List Line) : Except Line Entries :=
  let refused : Except Line Entries :=
    .error (text "Expected object with fields " ++ printedNames allowed ++ text "; required " ++
      printedNames required)
  match value with
  | .object entries =>
      if entries.all (fun entry => allowed.contains entry.1) &&
          required.all (fun name => entries.any fun entry => entry.1 == name) then .ok entries
      else refused
  | _ => refused

def item (entries : Entries) (name : String) : Json :=
  (entries.lookup (text name)).getD .null

abbrev Plain := { value : Line // value ≠ [] ∧ '\x00' ∉ value }

def string : Json → Except Line Plain
  | .string value =>
      if good : value ≠ [] ∧ '\x00' ∉ value then .ok ⟨value, good⟩
      else .error (text "Expected nonempty string without NUL")
  | _ => .error (text "Expected nonempty string without NUL")

abbrev Bounded (low high : Int) := { n : Int // low ≤ n ∧ n ≤ high }

def integer (value : Json) (low high : Int) : Except Line (Bounded low high) :=
  let refused : Except Line (Bounded low high) :=
    .error (text "Expected integer in " ++ printed low ++ text ".." ++ printed high)
  match value with
  | .int n => if inside : low ≤ n ∧ n ≤ high then .ok ⟨n, inside⟩ else refused
  | _ => refused

def array (value : Json) (refusal : Line) : Except Line (List Json) :=
  match value with
  | .array items => .ok items
  | _ => .error refusal

def strings (value : Json) : Except Line (List Plain) := do
  let items ← array value (text "Expected array of strings")
  items.mapM string

def boolean (value : Json) (refusal : Line) : Except Line Bool :=
  match value with
  | .bool value => .ok value
  | _ => .error refusal

/-- The root of a pure path. POSIX keeps exactly two leading slashes apart from one. -/
inductive Root where
  | relative
  | slash
  | doubleSlash
  deriving DecidableEq, Repr

structure Path where
  root : Root
  parts : List Line
  deriving DecidableEq, Repr

namespace Path

def parse (value : Line) : Path :=
  { root :=
      if (text "///").isPrefixOf value then .slash
      else if (text "//").isPrefixOf value then .doubleSlash
      else if (text "/").isPrefixOf value then .slash
      else .relative
    parts := (value.splitOn '/').filter fun part => part ≠ [] ∧ part ≠ text "." }

def isAbsolute (path : Path) : Bool := path.root ≠ .relative

def printed (path : Path) : Line :=
  let tail := (text "/").intercalate path.parts
  match path.root with
  | .relative => if path.parts = [] then text "." else tail
  | .slash => text "/" ++ tail
  | .doubleSlash => text "//" ++ tail

def join (directory path : Path) : Path :=
  if path.isAbsolute then path else { directory with parts := directory.parts ++ path.parts }

def parent (path : Path) : Path := { path with parts := path.parts.dropLast }

def parents (path : Path) : List Path :=
  path.parts.inits.dropLast.reverse.map fun parts => { path with parts := parts }

def Component (part : Line) : Prop := part ≠ [] ∧ part ≠ text "." ∧ '/' ∉ part

variable {value part : Line}

theorem not_mem_of_mem_splitOn {mark : Char}
    (member : part ∈ value.splitOn mark) : mark ∉ part := by
  induction value generalizing part with
  | nil =>
    rw [List.splitOn_nil, List.mem_singleton] at member
    rw [member]
    exact List.not_mem_nil
  | cons c rest ih =>
    rw [List.splitOn_cons_eq_if_modifyHead] at member
    split_ifs at member with marked
    · rcases List.mem_cons.mp member with rfl | later
      · exact List.not_mem_nil
      · exact ih later
    · obtain ⟨first, others, split⟩ := List.exists_cons_of_ne_nil (List.splitOn_ne_nil mark rest)
      rw [split, List.modifyHead_cons, List.mem_cons] at member
      rcases member with rfl | later
      · have clear := ih (split ▸ List.mem_cons_self)
        intro found
        rcases List.mem_cons.mp found with rfl | inside
        · exact marked (beq_self_eq_true _)
        · exact clear inside
      · exact ih (split ▸ List.mem_cons_of_mem _ later)

theorem subset_of_mem_splitOn {mark c : Char}
    (member : part ∈ value.splitOn mark) (inside : c ∈ part) : c ∈ value := by
  induction value generalizing part with
  | nil =>
    rw [List.splitOn_nil, List.mem_singleton] at member
    exact member ▸ inside
  | cons d rest ih =>
    rw [List.splitOn_cons_eq_if_modifyHead] at member
    split_ifs at member with marked
    · rcases List.mem_cons.mp member with rfl | later
      · exact absurd inside List.not_mem_nil
      · exact List.mem_cons_of_mem d (ih later inside)
    · obtain ⟨first, others, split⟩ := List.exists_cons_of_ne_nil (List.splitOn_ne_nil mark rest)
      rw [split, List.modifyHead_cons, List.mem_cons] at member
      rcases member with rfl | later
      · rcases List.mem_cons.mp inside with rfl | tail
        · exact List.mem_cons_self
        · exact List.mem_cons_of_mem d (ih (split ▸ List.mem_cons_self) tail)
      · exact List.mem_cons_of_mem d (ih (split ▸ List.mem_cons_of_mem first later) inside)

theorem component_of_parse (member : part ∈ (parse value).parts) :
    Component part := by
  obtain ⟨found, kept⟩ := List.mem_filter.mp member
  obtain ⟨filled, named⟩ := of_decide_eq_true kept
  exact ⟨filled, named, not_mem_of_mem_splitOn found⟩

theorem subset_of_parse {c : Char} (member : part ∈ (parse value).parts)
    (inside : c ∈ part) : c ∈ value :=
  subset_of_mem_splitOn (List.mem_filter.mp member).1 inside

theorem filter_components {parts : List Line} (components : ∀ part ∈ parts, Component part) :
    parts.filter (fun part => part ≠ [] ∧ part ≠ text ".") = parts := by
  apply List.filter_eq_self.mpr
  intro part member
  exact decide_eq_true ⟨(components part member).1, (components part member).2.1⟩

theorem parts_slash (rest : Line) : (parse ('/' :: rest)).parts = (parse rest).parts := by
  unfold parse
  rw [List.splitOn_cons_eq_if_modifyHead, if_pos (beq_self_eq_true _),
    List.filter_cons_of_neg (by simp)]

theorem parts_printed {path : Path} (absolute : path.isAbsolute = true)
    (components : ∀ part ∈ path.parts, Component part) :
    (parse path.printed).parts = path.parts := by
  have tail : (parse ((text "/").intercalate path.parts)).parts = path.parts := by
    unfold parse
    by_cases empty : path.parts = []
    · rw [empty]
      decide
    · have split := List.splitOn_intercalate '/'
        (fun part member => (components part member).2.2) empty
      rw [show text "/" = ['/'] from rfl, split, filter_components components]
  cases kind : path.root with
  | relative => simp [isAbsolute, kind] at absolute
  | slash =>
    have whole : path.printed = '/' :: (text "/").intercalate path.parts := by
      rw [printed, kind]
      rfl
    rw [whole, parts_slash, tail]
  | doubleSlash =>
    have whole : path.printed = '/' :: '/' :: (text "/").intercalate path.parts := by
      rw [printed, kind]
      rfl
    rw [whole, parts_slash, parts_slash, tail]

theorem mem_intercalate {mark : Line} {parts : List Line} {c : Char}
    (member : c ∈ mark.intercalate parts) : c ∈ mark ∨ ∃ part ∈ parts, c ∈ part := by
  induction parts with
  | nil => exact absurd member List.not_mem_nil
  | cons part rest ih =>
    cases rest with
    | nil =>
      rw [List.intercalate_singleton] at member
      exact Or.inr ⟨part, List.mem_cons_self, member⟩
    | cons other rest =>
      rw [List.intercalate_cons_cons, List.mem_append, List.mem_append] at member
      rcases member with (here | between) | later
      · exact Or.inr ⟨part, List.mem_cons_self, here⟩
      · exact Or.inl between
      · rcases ih later with between | ⟨found, listed, inside⟩
        · exact Or.inl between
        · exact Or.inr ⟨found, List.mem_cons_of_mem part listed, inside⟩

/-- What `resolve` makes of a path: absolute, without `..`, and without a NUL, which no file
system has in a name. -/
structure Normal (path : Path) : Prop where
  root : path.root = .slash
  components : ∀ part ∈ path.parts, Component part
  straight : text ".." ∉ path.parts
  clear : ∀ part ∈ path.parts, '\x00' ∉ part

instance (path : Path) : Decidable path.Normal :=
  decidable_of_iff (path.root = .slash ∧
      (∀ part ∈ path.parts, part ≠ [] ∧ part ≠ text "." ∧ '/' ∉ part) ∧
      path.parts.contains (text "..") ≠ true ∧ ∀ part ∈ path.parts, '\x00' ∉ part)
    ⟨fun checks => ⟨checks.1, checks.2.1, mt List.contains_iff_mem.mpr checks.2.2.1,
        checks.2.2.2⟩,
      fun normal => ⟨normal.root, normal.components, mt List.contains_iff_mem.mp normal.straight,
        normal.clear⟩⟩

theorem eq_of_root_parts {first second : Path} (root : first.root = second.root)
    (parts : first.parts = second.parts) : first = second := by
  cases first
  cases second
  cases root
  cases parts
  rfl

theorem parse_printed {path : Path} (normal : path.Normal) : parse path.printed = path := by
  have absolute : path.isAbsolute = true := by
    rw [isAbsolute, normal.root]
    decide
  have parts := parts_printed absolute normal.components
  have whole : path.printed = '/' :: (text "/").intercalate path.parts := by
    rw [printed, normal.root]
    rfl
  have root : (parse path.printed).root = .slash := by
    rw [whole]
    cases listed : path.parts with
    | nil => rfl
    | cons part rest =>
      obtain ⟨filled, -, plain⟩ := normal.components part (listed ▸ List.mem_cons_self)
      obtain ⟨c, tail, rfl⟩ := List.exists_cons_of_ne_nil filled
      have different : c ≠ '/' := fun same => plain (same ▸ List.mem_cons_self)
      cases rest <;>
        simp [parse, text, List.intercalate, List.intersperse, List.isPrefixOf, Ne.symm different]
  exact eq_of_root_parts (root.trans normal.root.symm) parts

/-- `lstrip('/')` leaves a relative path with the same parts. -/
theorem parse_lstrip (value : Line) :
    parse (value.dropWhile (· = '/')) = ⟨.relative, (parse value).parts⟩ := by
  induction value with
  | nil => rfl
  | cons c rest ih =>
    by_cases slash : c = '/'
    · rw [slash, parts_slash, ← ih]
      rfl
    · have kept : (c :: rest).dropWhile (· = '/') = c :: rest := by
        rw [List.dropWhile_cons, if_neg (by simpa using slash)]
      rw [kept]
      simp [parse, text, List.isPrefixOf, Ne.symm slash]

theorem mem_inits_dropLast {front parts : List Line} :
    front ∈ parts.inits.dropLast ↔ front <+: parts ∧ front ≠ parts := by
  induction parts generalizing front with
  | nil => simp
  | cons part rest ih =>
    have some : rest.inits.map (part :: ·) ≠ [] := by
      rw [Ne, List.map_eq_nil_iff]
      exact List.ne_nil_of_mem ((List.mem_inits [] rest).mpr List.nil_prefix)
    rw [List.inits_cons, List.dropLast_cons_of_ne_nil some, List.mem_cons, ← List.map_dropLast]
    cases front with
    | nil => simp
    | cons first front =>
      simp only [reduceCtorEq, List.mem_map, List.cons.injEq, false_or, List.cons_prefix_cons, ih]
      constructor
      · rintro ⟨other, ⟨before, proper⟩, rfl, rfl⟩
        exact ⟨⟨rfl, before⟩, fun same => proper (List.cons.inj same).2⟩
      · rintro ⟨⟨rfl, before⟩, proper⟩
        exact ⟨front, ⟨before, fun same => proper (congrArg _ same)⟩, rfl, rfl⟩

theorem mem_parents {path other : Path} :
    path ∈ other.parents ↔
      path.root = other.root ∧ path.parts <+: other.parts ∧ path.parts ≠ other.parts := by
  simp only [parents, List.mem_map, List.mem_reverse, mem_inits_dropLast]
  constructor
  · rintro ⟨parts, before, rfl⟩
    exact ⟨rfl, before⟩
  · rintro ⟨root, before⟩
    exact ⟨path.parts, before, by rw [← root]⟩

end Path

theorem pairwise_snoc {α : Type} {relation : α → α → Prop} {items : List α} {item : α}
    (apart : items.Pairwise relation) (clear : ∀ previous ∈ items, relation previous item) :
    (items ++ [item]).Pairwise relation := by
  rw [List.pairwise_append]
  refine ⟨apart, List.pairwise_singleton _ _, ?_⟩
  intro previous member added same
  rw [List.mem_singleton.mp same]
  exact clear previous member

end Chimaera.Session
