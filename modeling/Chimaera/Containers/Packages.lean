import Chimaera.Base.Characters
import Chimaera.Base.Dictionary
import Chimaera.Base.Text
import Chimaera.Base.Worklist
import Mathlib.Data.List.Basic

/-! `stage-guest.py`: the packages of the ROS distribution that a guest needs, followed through
the `Depends` fields of the installed ones. -/

namespace Chimaera.Containers.Packages
open Base.Characters Base.Dictionary Base.Text Base.Unsigned Base.Worklist

inductive Exception where
  | runtimeError (what : Line)
  | attributeError (what : Line)
  | keyError (key : Line)
  deriving DecidableEq, Repr

/-- The distribution, the packages of the SDK with their versions, and what each installed
package depends on. -/
structure Sdk where
  distro : Line
  packages : List (Line × Line)
  dependencies : List (Line × Line)

def Sdk.has (sdk : Sdk) (package : Line) : Bool := (sdk.packages.lookup package).isSome

def Sdk.isRos (sdk : Sdk) (package : Line) : Bool :=
  (text "ros-" ++ sdk.distro ++ text "-").isPrefixOf package

def isName (c : Char) : Bool :=
  ('a' ≤ c && c ≤ 'z') || c.isDigit || c = '+' || c = '.' || c = '-'

section Selection

variable (classes : Classes)

/-- The group of `\s*([a-z0-9+.-]+)` at the start of an alternative. -/
def matched (part : Line) : Option Line :=
  let name := (part.dropWhile classes.space).takeWhile isName
  if name = [] then none else some name

def alternatives (group : Line) : Except Exception (List Line) :=
  ((group.splitOn '|').filter fun part => !part.all classes.space).mapM fun part =>
    match matched classes part with
    | some name => .ok name
    | none => .error (.attributeError (text "'NoneType' object has no attribute 'group'"))

def examine (sdk : Sdk) (package : Line) (found : List Line × List Line) (group : Line) :
    Except Exception (List Line × List Line) := do
  let names ← alternatives classes group
  match names.find? sdk.has with
  | some installed =>
      if sdk.isRos installed then .ok (found.1 ++ [installed], found.2)
      else if (text "python3").isPrefixOf installed && !(text "-dev").isSuffixOf installed then
        .ok (found.1, found.2.insert installed)
      else .ok found
  | none =>
      if names.any sdk.isRos then
        .error (.runtimeError (text "No installed ROS dependency satisfies " ++ package ++
          text ": " ++ group))
      else .ok found

def visit (sdk : Sdk) (system : List Line) (package : Line) :
    Except Exception (List Line × List Line) :=
  if !sdk.has package then
    .error (.runtimeError (text "Guest ROS dependency is missing from SDK: " ++ package))
  else
    match sdk.dependencies.lookup package with
    | none => .error (.keyError package)
    | some depends => (depends.splitOn ',').foldlM (examine classes sdk package) ([], system)

def roots (sdk : Sdk) (names : List Line) : List Line :=
  names.map fun name => text "ros-" ++ sdk.distro ++ text "-" ++ name

def select (sdk : Sdk) (names runtimePackages : List Line) (fuel : Nat) :
    Option (Except Exception (State Line (List Line))) :=
  loop (visit classes sdk) fuel ⟨[], (roots sdk names).reverse, runtimePackages⟩

/-! ## What the loop selects -/

def Group (sdk : Sdk) (package group : Line) (names : List Line) : Prop :=
  ∃ depends, sdk.dependencies.lookup package = some depends ∧ group ∈ depends.splitOn ',' ∧
    alternatives classes group = .ok names

def Needs (sdk : Sdk) (package needed : Line) : Prop :=
  ∃ group names, Group classes sdk package group names ∧ names.find? sdk.has = some needed ∧
    sdk.isRos needed = true

def Unsatisfied (sdk : Sdk) (package : Line) : Prop :=
  ∃ group names, Group classes sdk package group names ∧ names.find? sdk.has = none ∧
    names.any sdk.isRos = true

def WellFormed (sdk : Sdk) : Prop :=
  ∀ package, sdk.has package = true → ∃ depends, sdk.dependencies.lookup package = some depends ∧
    ∀ group ∈ depends.splitOn ',', ∀ part ∈ group.splitOn '|',
      part.all classes.space = true ∨ (matched classes part).isSome = true

def wellFormed (sdk : Sdk) : Bool :=
  sdk.packages.all fun entry =>
    match sdk.dependencies.lookup entry.1 with
    | none => false
    | some depends =>
        (depends.splitOn ',').all fun group =>
          (group.splitOn '|').all fun part =>
            part.all classes.space || (matched classes part).isSome

variable {sdk : Sdk}

theorem WellFormed.of_check (checked : wellFormed classes sdk = true) :
    WellFormed classes sdk := by
  intro package present
  obtain ⟨version, found⟩ := Option.isSome_iff_exists.mp present
  have entry := List.all_eq_true.mp checked _ (mem_of_lookup found)
  dsimp only at entry
  cases depending : sdk.dependencies.lookup package with
  | none =>
    rw [depending] at entry
    cases entry
  | some depends =>
    rw [depending] at entry
    refine ⟨depends, rfl, ?_⟩
    intro group member part inside
    have groups := List.all_eq_true.mp entry group member
    exact Bool.or_eq_true_iff.mp (List.all_eq_true.mp groups part inside)

theorem alternatives_ok {group : Line}
    (wellFormed : ∀ part ∈ group.splitOn '|',
      part.all classes.space = true ∨ (matched classes part).isSome = true) :
    ∃ names, alternatives classes group = .ok names := by
  have all : ∀ parts : List Line,
      (∀ part ∈ parts, (matched classes part).isSome = true) →
      ∃ names, (parts.mapM fun part =>
        match matched classes part with
        | some name => Except.ok name
        | none => .error (Exception.attributeError
            (text "'NoneType' object has no attribute 'group'"))) = .ok names := by
    intro parts named
    induction parts with
    | nil => exact ⟨[], rfl⟩
    | cons part rest ih =>
      obtain ⟨first, others⟩ := List.forall_mem_cons.mp named
      obtain ⟨name, found⟩ := Option.isSome_iff_exists.mp first
      obtain ⟨names, later⟩ := ih others
      refine ⟨name :: names, ?_⟩
      rw [List.mapM_cons, found, ok_bind, later, ok_bind]
      rfl
  apply all
  intro part member
  obtain ⟨inside, filled⟩ := List.mem_filter.mp member
  apply (wellFormed part inside).resolve_left
  simpa using filled

theorem examine_ok {package group : Line} {found after : List Line × List Line}
    (examined : examine classes sdk package found group = .ok after) :
    ∃ names, alternatives classes group = .ok names ∧
      ¬(names.find? sdk.has = none ∧ names.any sdk.isRos = true) ∧
      ∀ needed, needed ∈ after.1 ↔ needed ∈ found.1 ∨
        (names.find? sdk.has = some needed ∧ sdk.isRos needed = true) := by
  obtain ⟨names, named, rest⟩ := bind_eq_ok.mp examined
  refine ⟨names, named, ?_⟩
  cases first : names.find? sdk.has with
  | none =>
    rw [first] at rest
    by_cases ros : names.any sdk.isRos = true
    · simp only [if_pos ros] at rest
      cases rest
    · simp only [if_neg ros] at rest
      cases rest
      exact ⟨fun both => ros both.2, fun needed => by simp⟩
  | some installed =>
    rw [first] at rest
    refine ⟨fun both => Option.some_ne_none _ both.1, ?_⟩
    intro needed
    by_cases ros : sdk.isRos installed = true
    · simp only [if_pos ros] at rest
      cases rest
      rw [List.mem_append, List.mem_singleton, Option.some.injEq]
      apply or_congr_right
      constructor
      · rintro rfl
        exact ⟨rfl, ros⟩
      · rintro ⟨rfl, -⟩
        rfl
    · have none : ¬(some installed = some needed ∧ sdk.isRos needed = true) := by
        rintro ⟨same, other⟩
        rw [Option.some.inj same] at ros
        exact ros other
      simp only [if_neg ros] at rest
      rw [or_iff_left none]
      split_ifs at rest
      · cases rest
        rfl
      · cases rest
        rfl

theorem examine_error {package group : Line} {found : List Line × List Line} {names : List Line}
    (named : alternatives classes group = .ok names) {raised : Exception}
    (failed : examine classes sdk package found group = .error raised) :
    names.find? sdk.has = none ∧ names.any sdk.isRos = true ∧
      raised = .runtimeError (text "No installed ROS dependency satisfies " ++ package ++
        text ": " ++ group) := by
  rw [examine, named, ok_bind] at failed
  cases first : names.find? sdk.has with
  | none =>
    rw [first] at failed
    by_cases ros : names.any sdk.isRos = true
    · simp only [if_pos ros] at failed
      cases failed
      exact ⟨rfl, ros, rfl⟩
    · simp only [if_neg ros] at failed
      cases failed
  | some installed =>
    rw [first] at failed
    dsimp only at failed
    split_ifs at failed

/-- The groups in turn: each is satisfied where it has to be, and what they push is what they
need. -/
theorem groups_ok {package : Line} {groups : List Line} {found after : List Line × List Line}
    (examined : groups.foldlM (examine classes sdk package) found = .ok after) :
    (∀ group ∈ groups, ∀ names, alternatives classes group = .ok names →
      ¬(names.find? sdk.has = none ∧ names.any sdk.isRos = true)) ∧
    ∀ needed, needed ∈ after.1 ↔ needed ∈ found.1 ∨ ∃ group ∈ groups, ∃ names,
      alternatives classes group = .ok names ∧ names.find? sdk.has = some needed ∧
        sdk.isRos needed = true := by
  induction groups generalizing found with
  | nil =>
    cases examined
    constructor
    · intro group member
      cases member
    · intro needed
      simp
  | cons group rest ih =>
    rw [List.foldlM_cons] at examined
    obtain ⟨middle, first, later⟩ := bind_eq_ok.mp examined
    obtain ⟨names, named, satisfied, adds⟩ := examine_ok classes first
    obtain ⟨others, pushed⟩ := ih later
    constructor
    · intro other member list found
      rcases List.mem_cons.mp member with rfl | member
      · rw [named] at found
        cases found
        exact satisfied
      · exact others other member list found
    · intro needed
      rw [pushed, adds, or_assoc]
      apply or_congr_right
      simp only [List.mem_cons, exists_eq_or_imp, named, Except.ok.injEq, exists_eq_left']

theorem groups_error {package : Line} {groups : List Line}
    (named : ∀ group ∈ groups, ∃ names, alternatives classes group = .ok names)
    {found : List Line × List Line} {raised : Exception}
    (failed : groups.foldlM (examine classes sdk package) found = .error raised) :
    ∃ group ∈ groups, ∃ names, alternatives classes group = .ok names ∧
      names.find? sdk.has = none ∧ names.any sdk.isRos = true ∧
      raised = .runtimeError (text "No installed ROS dependency satisfies " ++ package ++
        text ": " ++ group) := by
  induction groups generalizing found with
  | nil => cases failed
  | cons group rest ih =>
    obtain ⟨⟨names, first⟩, others⟩ := List.forall_mem_cons.mp named
    rw [List.foldlM_cons] at failed
    cases examined : examine classes sdk package found group with
    | error other =>
      rw [examined, error_bind] at failed
      cases failed
      obtain ⟨missing, ros, what⟩ := examine_error classes first examined
      exact ⟨group, List.mem_cons_self, names, first, missing, ros, what⟩
    | ok middle =>
      rw [examined, ok_bind] at failed
      obtain ⟨other, member, rest⟩ := ih others failed
      exact ⟨other, List.mem_cons_of_mem _ member, rest⟩

def Fine (sdk : Sdk) (package : Line) : Prop :=
  sdk.has package = true ∧ ¬Unsatisfied classes sdk package

theorem visit_explores (sdk : Sdk) :
    Explores (visit classes sdk) (Needs classes sdk) (Fine classes sdk) := by
  intro system package pushed after visited
  cases present : sdk.has package with
  | false => simp [visit, present] at visited
  | true =>
    cases depending : sdk.dependencies.lookup package with
    | none => simp [visit, present, depending] at visited
    | some depends =>
      simp only [visit, present, depending, Bool.not_true, Bool.false_eq_true, if_false]
        at visited
      obtain ⟨satisfied, pushes⟩ := groups_ok classes visited
      refine ⟨⟨present, ?_⟩, ?_⟩
      · rintro ⟨group, names, ⟨other, found, member, named⟩, missing, ros⟩
        rw [depending] at found
        cases found
        exact satisfied group member names named ⟨missing, ros⟩
      · intro needed
        rw [pushes]
        constructor
        · rintro (before | ⟨group, member, names, named, first, ros⟩)
          · cases before
          · exact ⟨group, names, ⟨depends, depending, member, named⟩, first, ros⟩
        · rintro ⟨group, names, ⟨other, found, member, named⟩, first, ros⟩
          rw [depending] at found
          cases found
          exact .inr ⟨group, member, names, named, first, ros⟩

def Raises (sdk : Sdk) (package : Line) (raised : Exception) : Prop :=
  (sdk.has package = false ∧
    raised = .runtimeError (text "Guest ROS dependency is missing from SDK: " ++ package)) ∨
  ∃ group names, Group classes sdk package group names ∧ names.find? sdk.has = none ∧
    names.any sdk.isRos = true ∧
    raised = .runtimeError (text "No installed ROS dependency satisfies " ++ package ++
      text ": " ++ group)

theorem visit_error (wellFormed : WellFormed classes sdk) {package : Line} {system : List Line}
    {raised : Exception} (failed : visit classes sdk system package = .error raised) :
    Raises classes sdk package raised := by
  cases present : sdk.has package with
  | false =>
    simp only [visit, present, Bool.not_false, if_true] at failed
    cases failed
    exact .inl ⟨present, rfl⟩
  | true =>
    obtain ⟨depends, depending, parts⟩ := wellFormed package present
    have named : ∀ group ∈ depends.splitOn ',', ∃ names,
        alternatives classes group = .ok names :=
      fun group member => alternatives_ok classes (parts group member)
    simp only [visit, present, depending, Bool.not_true, Bool.false_eq_true, if_false] at failed
    obtain ⟨group, member, names, alike, missing, ros, what⟩ := groups_error classes named failed
    exact .inr ⟨group, names, ⟨depends, depending, member, alike⟩, missing, ros, what⟩

theorem fine_mem {package : Line} (fine : Fine classes sdk package) :
    package ∈ (sdk.packages.map Prod.fst).toFinset := by
  obtain ⟨version, found⟩ := Option.isSome_iff_exists.mp fine.1
  rw [List.mem_toFinset]
  exact List.mem_map_of_mem (mem_of_lookup found)

/-- The loop ends. If it does not raise, it has selected the least set with the roots and what
its members need; it raises exactly where a package that the roots lead to is not installed or
has a group of the distribution that nothing installed satisfies. -/
theorem selection_is_closure (sdk : Sdk) (names runtimePackages : List Line)
    (wellFormed : WellFormed classes sdk) :
    ∃ fuel outcome,
      (∀ more, fuel ≤ more → select classes sdk names runtimePackages more = some outcome) ∧
      (∀ final, outcome = .ok final →
        IsLeast (Closed (Needs classes sdk) (roots sdk names))
          { package | package ∈ final.selected }) ∧
      ((∃ raised, outcome = .error raised) ↔
        ∃ package, Reaches (Needs classes sdk) (roots sdk names) package ∧
          (sdk.has package = false ∨ Unsatisfied classes sdk package)) ∧
      ∀ raised, outcome = .error raised →
        ∃ package, Reaches (Needs classes sdk) (roots sdk names) package ∧
          Raises classes sdk package raised := by
  obtain ⟨fuel, outcome, ended, ends⟩ := exploration (visit_explores classes sdk)
    (fun _ fine => fine_mem classes fine) (roots sdk names) runtimePackages
  refine ⟨fuel, outcome, ended, ?_⟩
  rcases ends with ⟨final, rfl, fine, least⟩ | ⟨raised, package, system, rfl, reached, failed⟩
  · refine ⟨?_, ⟨?_, ?_⟩, ?_⟩
    · rintro other ⟨⟩
      exact least
    · rintro ⟨raised, ⟨⟩⟩
    · rintro ⟨package, reached, bad⟩
      obtain ⟨present, satisfied⟩ := fine package reached
      rcases bad with absent | unsatisfied
      · rw [present] at absent
        cases absent
      · exact absurd unsatisfied satisfied
    · rintro raised ⟨⟩
  · have raises := visit_error classes wellFormed failed
    refine ⟨?_, ⟨?_, ?_⟩, ?_⟩
    · rintro final ⟨⟩
    · rintro -
      refine ⟨package, reached, ?_⟩
      rcases raises with ⟨absent, -⟩ | ⟨group, list, grouped, missing, ros, -⟩
      · exact .inl absent
      · exact .inr ⟨group, list, grouped, missing, ros⟩
    · rintro -
      exact ⟨raised, rfl⟩
    · rintro other ⟨⟩
      exact ⟨package, reached, raises⟩

end Selection

def mutualSdk : Sdk where
  distro := text "jazzy"
  packages := [(text "ros-jazzy-a", text "1"), (text "ros-jazzy-b", text "2"),
    (text "python3-yaml", text "6")]
  dependencies := [(text "ros-jazzy-a", text "none | ros-jazzy-b (>= 2), python3-yaml"),
    (text "ros-jazzy-b", text "ros-jazzy-a, libc6"), (text "python3-yaml", [])]

theorem mutualSdk_selected :
    ∃ final, select ascii mutualSdk [text "a"] [] 4 = some (.ok final) ∧
      final.selected = [text "ros-jazzy-a", text "ros-jazzy-b"] ∧
      IsLeast (Closed (Needs ascii mutualSdk) (roots mutualSdk [text "a"]))
        { package | package ∈ final.selected } := by
  have fine : WellFormed ascii mutualSdk := .of_check ascii (by decide +kernel)
  have ran : (select ascii mutualSdk [text "a"] [] 4).bind
      (fun outcome => outcome.toOption.map State.selected) =
        some [text "ros-jazzy-a", text "ros-jazzy-b"] := by decide +kernel
  obtain ⟨outcome, here, ended⟩ := Option.bind_eq_some_iff.mp ran
  obtain ⟨final, returned, selected⟩ := Option.map_eq_some_iff.mp ended
  have returned := eq_ok_of_toOption returned
  obtain ⟨fuel, other, later, least, -⟩ := selection_is_closure ascii mutualSdk [text "a"] [] fine
  have same : some other = some outcome :=
    (later _ (Nat.le_max_left fuel 4)).symm.trans (loop_mono (Nat.le_max_right fuel 4) here)
  cases same
  exact ⟨final, by rw [here, returned], selected, least final returned⟩

end Chimaera.Containers.Packages
