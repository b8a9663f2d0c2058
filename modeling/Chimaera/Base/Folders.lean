import Mathlib.Data.List.Infix
import Mathlib.Data.List.Nodup
import Chimaera.Base.Checked
import Chimaera.Base.Dictionary

/-! A tree of folders and files that a program lays out: folders are made with their ancestors,
files are written into folders that are there, and whole trees are copied. Every write is
recorded, so that a file that is written twice shows. Actions whose targets do not lie in one
another never meet an existing path and never write a file twice. -/

namespace Chimaera.Base.Folders
open Unsigned Checked Dictionary

inductive Kind where
  | folder
  | file
  deriving DecidableEq, Repr

structure Disk (ν γ : Type) where
  kind : List ν → Option Kind
  writes : List (List ν × γ)

inductive Failure (ν : Type) where
  | alreadyExists (path : List ν)
  | notADirectory (path : List ν)
  | isADirectory (path : List ν)
  | notFound (path : List ν)
  deriving DecidableEq, Repr

/-- The contents of a folder in the order in which they are copied: every folder before what is in
it. Symbolic links are followed. -/
structure Listing (ν : Type) where
  entries : List (List ν × Kind)
  distinct : (entries.map Prod.fst).Nodup
  named : ∀ entry ∈ entries, entry.1 ≠ []
  rooted : ∀ done entry later, entries = done ++ entry :: later →
    ∀ front, front <+: entry.1 → front ≠ [] → front ≠ entry.1 → (front, .folder) ∈ done

inductive Action (ν γ : Type) where
  /-- A file that is copied, with its own name. -/
  | copyFile (name : Option ν) (content : γ) (path : List ν)
  | copyTree (listing : Listing ν) (content : List ν → γ) (path : List ν)
  | write (content : γ) (path : List ν)

def Action.path {ν γ : Type} : Action ν γ → List ν
  | .copyFile _ _ path => path
  | .copyTree _ _ path => path
  | .write _ path => path

section

variable {ν γ : Type} [DecidableEq ν]

def Disk.makeFolders (disk : Disk ν γ) (path : List ν) : Except (Failure ν) (Disk ν γ) :=
  if disk.kind path ≠ none then .error (.alreadyExists path)
  else if ∃ front ∈ path.inits, disk.kind front = some .file then .error (.notADirectory path)
  else .ok { disk with
    kind := fun other =>
      if other <+: path ∧ disk.kind other = none then some .folder else disk.kind other }

def Disk.write (disk : Disk ν γ) (path : List ν) (content : γ) :
    Except (Failure ν) (Disk ν γ) :=
  match disk.kind path.dropLast, disk.kind path with
  | none, _ => .error (.notFound path)
  | some .file, _ => .error (.notADirectory path)
  | some .folder, some .folder => .error (.isADirectory path)
  | some .folder, _ => .ok {
      kind := fun other => if other = path then some .file else disk.kind other
      writes := disk.writes ++ [(path, content)] }

def Disk.copyFile (disk : Disk ν γ) (name : Option ν) (path : List ν) (content : γ) :
    Except (Failure ν) (Disk ν γ) :=
  if disk.kind path = some .folder then disk.write (path ++ name.toList) content
  else disk.write path content

def Disk.copyEntry (target : List ν) (content : List ν → γ) (disk : Disk ν γ)
    (entry : List ν × Kind) : Except (Failure ν) (Disk ν γ) :=
  match entry.2 with
  | .folder => disk.makeFolders (target ++ entry.1)
  | .file => disk.copyFile entry.1.getLast? (target ++ entry.1) (content entry.1)

def Disk.copyTree (disk : Disk ν γ) (listing : Listing ν) (target : List ν)
    (content : List ν → γ) : Except (Failure ν) (Disk ν γ) := do
  let made ← disk.makeFolders target
  listing.entries.foldlM (Disk.copyEntry target content) made

def perform (disk : Disk ν γ) : Action ν γ → Except (Failure ν) (Disk ν γ)
  | .copyFile name content path => disk.copyFile name path content
  | .copyTree listing content path => disk.copyTree listing path content
  | .write content path => disk.write path content

def performAll : List (Action ν γ) → Disk ν γ → Disk ν γ × Option (Failure ν)
  | [], disk => (disk, none)
  | action :: later, disk =>
    match perform disk action with
    | .ok next => performAll later next
    | .error failure => (disk, some failure)

def Listing.without (listing : Listing ν) (name : ν) : Listing ν where
  entries := listing.entries.filter fun entry => name ∉ entry.1
  distinct := listing.distinct.sublist (List.filter_sublist.map Prod.fst)
  named entry member := listing.named entry (List.mem_filter.mp member).1
  rooted done entry later split front before filled proper := by
    obtain ⟨early, rest, whole, rfl, others⟩ := List.filter_eq_append_iff.mp split
    obtain ⟨skipped, after, rfl, none, kept, -⟩ := List.filter_eq_cons_iff.mp others
    have absent : name ∉ front := fun inside => of_decide_eq_true kept (before.subset inside)
    rw [← List.append_assoc] at whole
    rcases List.mem_append.mp (listing.rooted _ entry after whole front before filled proper)
      with listed | passed
    · exact List.mem_filter.mpr ⟨listed, decide_eq_true absent⟩
    · exact absurd (decide_eq_true absent) (none (front, .folder) passed)

def Disk.Rooted (disk : Disk ν γ) : Prop :=
  ∀ path, disk.kind path ≠ none → ∀ front, front <+: path → front ≠ path →
    disk.kind front = some .folder

theorem Disk.Rooted.below {disk : Disk ν γ} (rooted : disk.Rooted) {output path : List ν}
    (absent : disk.kind output = none) (below : output <+: path) : disk.kind path = none := by
  by_contra present
  by_cases same : output = path
  · exact present (same ▸ absent)
  · rw [rooted path present output below same] at absent
    cases absent

/-! ## Single actions -/

variable {path : List ν}

theorem makeFolders_ok {disk : Disk ν γ} (fresh : disk.kind path = none)
    (passable : ∀ front, front <+: path → disk.kind front ≠ some .file) :
    disk.makeFolders path = .ok { disk with
      kind := fun other =>
        if other <+: path ∧ disk.kind other = none then some .folder else disk.kind other } := by
  have clear : ¬ ∃ front ∈ path.inits, disk.kind front = some .file := by
    rintro ⟨front, member, file⟩
    exact passable front ((List.mem_inits front path).mp member) file
  rw [Disk.makeFolders, if_neg (not_not.mpr fresh), if_neg clear]

theorem makeFolders_inv {disk made : Disk ν γ} (ran : disk.makeFolders path = .ok made) :
    (∀ front, front <+: path → disk.kind front ≠ some .file) ∧ made = { disk with
      kind := fun other =>
        if other <+: path ∧ disk.kind other = none then some .folder else disk.kind other } := by
  unfold Disk.makeFolders at ran
  split_ifs at ran with present blocked
  · refine ⟨?_, (Except.ok.inj ran).symm⟩
    intro front before file
    exact blocked ⟨front, (List.mem_inits front path).mpr before, file⟩

theorem makeFolders_error {disk : Disk ν γ} {failure : Failure ν}
    (fresh : disk.kind path = none) (failed : disk.makeFolders path = .error failure) :
    failure = .notADirectory path := by
  unfold Disk.makeFolders at failed
  rw [if_neg (not_not.mpr fresh)] at failed
  split_ifs at failed
  · exact (Except.error.inj failed).symm

theorem write_ok {disk : Disk ν γ} (content : γ) (fresh : disk.kind path = none)
    (parent : disk.kind path.dropLast = some .folder) :
    disk.write path content = .ok {
      kind := fun other => if other = path then some .file else disk.kind other
      writes := disk.writes ++ [(path, content)] } := by
  rw [Disk.write, parent, fresh]

theorem copyFile_ok {disk : Disk ν γ} (name : Option ν) (content : γ)
    (fresh : disk.kind path = none) (parent : disk.kind path.dropLast = some .folder) :
    disk.copyFile name path content = .ok {
      kind := fun other => if other = path then some .file else disk.kind other
      writes := disk.writes ++ [(path, content)] } := by
  rw [Disk.copyFile, if_neg (by simp [fresh]), write_ok content fresh parent]

/-! ## A tree that is copied to a new folder -/

def fileWrites (target : List ν) (content : List ν → γ) (entries : List (List ν × Kind)) :
    List (List ν × γ) :=
  (entries.filter fun entry => entry.2 = .file).map fun entry =>
    (target ++ entry.1, content entry.1)

structure Copied (target : List ν) (content : List ν → γ) (start : Disk ν γ)
    (done : List (List ν × Kind)) (disk : Disk ν γ) : Prop where
  inside : ∀ rest kind, rest ≠ [] → (disk.kind (target ++ rest) = some kind ↔ (rest, kind) ∈ done)
  outside : ∀ path, (∀ rest, rest ≠ [] → path ≠ target ++ rest) → disk.kind path = start.kind path
  writes : disk.writes = start.writes ++ fileWrites target content done

variable {target : List ν} {content : List ν → γ} {start disk : Disk ν γ}

theorem Copied.snoc {done : List (List ν × Kind)} {rest : List ν} {kind : Kind}
    {next : Disk ν γ} (copied : Copied target content start done disk) (named : rest ≠ [])
    (fresh : disk.kind (target ++ rest) = none)
    (changed : ∀ path, next.kind path =
      if path = target ++ rest then some kind else disk.kind path)
    (writes : next.writes = disk.writes ++ fileWrites target content [(rest, kind)]) :
    Copied target content start (done ++ [(rest, kind)]) next where
  inside other found filled := by
    rw [changed, List.mem_append, List.mem_singleton, Prod.mk.injEq]
    by_cases same : other = rest
    · have absent : (rest, found) ∉ done := by
        intro member
        rw [(copied.inside rest found named).mpr member] at fresh
        cases fresh
      rw [same, if_pos rfl]
      constructor
      · intro equal
        exact Or.inr ⟨rfl, (Option.some.inj equal).symm⟩
      · rintro (member | ⟨-, equal⟩)
        · exact absurd member absent
        · rw [equal]
    · have apart : target ++ other ≠ target ++ rest := fun equal =>
        same (List.append_cancel_left equal)
      rw [if_neg apart, copied.inside other found filled]
      simp [same]
  outside path away := by
    rw [changed, if_neg (away rest named), copied.outside path away]
  writes := by
    rw [writes, copied.writes, List.append_assoc]
    simp [fileWrites]

section

variable {listing : Listing ν} {done later : List (List ν × Kind)} {entry : List ν × Kind}

theorem Copied.above (split : listing.entries = done ++ entry :: later)
    (laid : ∀ front, front <+: target → start.kind front = some .folder)
    (copied : Copied target content start done disk) {front : List ν}
    (before : front <+: target ++ entry.1) (proper : front ≠ target ++ entry.1) :
    disk.kind front = some .folder := by
  by_cases above : front <+: target
  · rw [copied.outside front, laid front above]
    rintro rest filled rfl
    have short := above.length_le
    rw [List.length_append] at short
    have positive := List.length_pos_iff.mpr filled
    omega
  · have inside := (List.prefix_or_prefix_of_prefix before
      (List.prefix_append target entry.1)).resolve_left above
    obtain ⟨rest, rfl⟩ := inside
    have filled : rest ≠ [] := by
      rintro rfl
      exact above (by rw [List.append_nil])
    have strict : rest ≠ entry.1 := fun same => proper (by rw [same])
    have shorter : rest <+: entry.1 := (List.prefix_append_right_inj target).mp before
    exact (copied.inside rest .folder filled).mpr
      (listing.rooted done entry later split rest shorter filled strict)

theorem copyEntry_ok (split : listing.entries = done ++ entry :: later)
    (laid : ∀ front, front <+: target → start.kind front = some .folder)
    (copied : Copied target content start done disk) :
    ∃ next, disk.copyEntry target content entry = .ok next ∧
      Copied target content start (done ++ [entry]) next := by
  obtain ⟨rest, kind⟩ := entry
  have named : rest ≠ [] := listing.named (rest, kind) (by rw [split]; simp)
  have unseen : ∀ other, (rest, other) ∉ done := by
    intro other member
    have distinct := listing.distinct
    rw [split, List.map_append, List.map_cons, List.nodup_append] at distinct
    exact distinct.2.2 rest (List.mem_map_of_mem member) rest List.mem_cons_self rfl
  have fresh : disk.kind (target ++ rest) = none := by
    by_contra present
    obtain ⟨other, found⟩ := Option.ne_none_iff_exists'.mp present
    exact unseen other ((copied.inside rest other named).mp found)
  have above : ∀ front, front <+: target ++ rest → front ≠ target ++ rest →
      disk.kind front = some .folder := fun front before proper =>
    copied.above split laid before proper
  cases kind with
  | folder =>
    have passable : ∀ front, front <+: target ++ rest → disk.kind front ≠ some .file := by
      intro front before
      by_cases same : front = target ++ rest
      · rw [same, fresh]
        exact Option.some_ne_none _ ∘ Eq.symm
      · rw [above front before same]
        decide
    refine ⟨_, makeFolders_ok fresh passable, copied.snoc named fresh ?_ ?_⟩
    · intro path
      change (if path <+: target ++ rest ∧ disk.kind path = none then some Kind.folder
        else disk.kind path) = _
      by_cases same : path = target ++ rest
      · rw [if_pos same, if_pos ⟨same ▸ List.prefix_rfl, same ▸ fresh⟩]
      · rw [if_neg same, if_neg]
        rintro ⟨before, absent⟩
        rw [above path before same] at absent
        cases absent
    · simp [fileWrites]
  | file =>
    have parent : disk.kind (target ++ rest).dropLast = some .folder := by
      apply above
      · exact List.dropLast_prefix _
      · intro same
        have shorter := congrArg List.length same
        have positive := List.length_pos_iff.mpr named
        rw [List.length_dropLast, List.length_append] at shorter
        omega
    refine ⟨_, copyFile_ok _ (content rest) fresh parent, copied.snoc named fresh ?_ ?_⟩
    · intro path
      rfl
    · simp [fileWrites]

theorem copyEntries_ok (listing : Listing ν) (content : List ν → γ)
    (laid : ∀ front, front <+: target → start.kind front = some .folder)
    (empty : ∀ rest, rest ≠ [] → start.kind (target ++ rest) = none) :
    ∃ final, listing.entries.foldlM (Disk.copyEntry target content) start = .ok final ∧
      Copied target content start listing.entries final := by
  have initial : Copied target content start [] start := {
    inside := fun rest kind filled => by simp [empty rest filled]
    outside := fun path away => rfl
    writes := by simp [fileWrites] }
  suffices run : ∀ (later done : List (List ν × Kind)) (disk : Disk ν γ),
      listing.entries = done ++ later → Copied target content start done disk →
      ∃ final, later.foldlM (Disk.copyEntry target content) disk = .ok final ∧
        Copied target content start listing.entries final from
    run listing.entries [] start rfl initial
  intro later
  induction later with
  | nil =>
    intro done disk split copied
    rw [List.append_nil] at split
    exact ⟨disk, rfl, split ▸ copied⟩
  | cons entry later ih =>
    intro done disk split copied
    obtain ⟨next, stepped, kept⟩ := copyEntry_ok split laid copied
    obtain ⟨final, ran, all⟩ := ih (done ++ [entry]) next (by rw [split, List.append_cons]) kept
    refine ⟨final, ?_, all⟩
    rw [List.foldlM_cons, stepped, ok_bind, ran]

end

end

/-! ## A plan of actions -/

section Plan

variable {ν γ : Type}

/-- The disk under a plan: below the output there is nothing but what the targets already done
hold, and the folders on the way to a target. -/
structure Laid (output : List ν) (targets done : List (List ν)) (disk : Disk ν γ) : Prop where
  below : ∀ path kind, output <+: path → disk.kind path = some kind →
    (∃ target ∈ done, target <+: path) ∨
      kind = .folder ∧ ∃ target ∈ targets, path <+: target ∧ path ≠ target
  above : ∀ path, path <+: output → disk.kind path ≠ some .file
  written : ∀ entry ∈ disk.writes, disk.kind entry.1 ≠ none
  distinct : (disk.writes.map Prod.fst).Nodup

structure Targets (output : List ν) (targets : List (List ν)) : Prop where
  inside : ∀ target ∈ targets, output <+: target
  proper : ∀ target ∈ targets, target ≠ output
  apart : ∀ first ∈ targets, ∀ second ∈ targets, first <+: second → first = second

structure Extends (disk : Disk ν γ) (target : List ν) (new : List (List ν × γ))
    (next : Disk ν γ) : Prop where
  keeps : ∀ path kind, disk.kind path = some kind → next.kind path = some kind
  adds : ∀ path kind, disk.kind path = none → next.kind path = some kind →
    target <+: path ∨ kind = .folder ∧ path <+: target ∧ path ≠ target
  writes : next.writes = disk.writes ++ new
  distinct : (new.map Prod.fst).Nodup
  inside : ∀ entry ∈ new, target <+: entry.1 ∧ next.kind entry.1 ≠ none

section Steps

variable {output target : List ν} {targets done : List (List ν)} {disk next : Disk ν γ}
  (plan : Targets output targets) (laid : Laid output targets done disk)
  (known : ∀ target ∈ done, target ∈ targets) (member : target ∈ targets) (new : target ∉ done)

include plan laid known member new

theorem Laid.fresh {path : List ν} (below : target <+: path) : disk.kind path = none := by
  by_contra present
  obtain ⟨kind, found⟩ := Option.ne_none_iff_exists'.mp present
  have inside := (plan.inside target member).trans below
  rcases laid.below path kind inside found with
    ⟨other, finished, covers⟩ | ⟨-, other, planned, way, proper⟩
  · have listed := known other finished
    rcases List.prefix_or_prefix_of_prefix covers below with first | second
    · exact new (plan.apart other listed target member first ▸ finished)
    · exact new (plan.apart target member other listed second ▸ finished)
  · obtain rfl := plan.apart target member other planned (below.trans way)
    exact proper (way.eq_of_length_le below.length_le)

theorem Laid.passable {path : List ν} (way : path <+: target) : disk.kind path ≠ some .file := by
  intro file
  rcases List.prefix_or_prefix_of_prefix way (plan.inside target member) with above | inside
  · exact laid.above path above file
  · rcases laid.below path .file inside file with ⟨other, finished, covers⟩ | ⟨impossible, -⟩
    · have listed := known other finished
      exact new (plan.apart other listed target member (covers.trans way) ▸ finished)
    · cases impossible

theorem Laid.extend {writes : List (List ν × γ)} (extended : Extends disk target writes next) :
    Laid output targets (done ++ [target]) next where
  below path kind inside found := by
    by_cases old : disk.kind path = none
    · rcases extended.adds path kind old found with covers | ⟨folder, way, proper⟩
      · exact Or.inl ⟨target, List.mem_append_right _ List.mem_cons_self, covers⟩
      · exact Or.inr ⟨folder, target, member, way, proper⟩
    · obtain ⟨before, present⟩ := Option.ne_none_iff_exists'.mp old
      have same := extended.keeps path before present
      rw [found] at same
      obtain rfl := Option.some.inj same
      rcases laid.below path kind inside present with ⟨other, finished, covers⟩ | way
      · exact Or.inl ⟨other, List.mem_append_left _ finished, covers⟩
      · exact Or.inr way
  above path before file := by
    by_cases old : disk.kind path = none
    · rcases extended.adds path .file old file with covers | ⟨impossible, -⟩
      · have inside := plan.inside target member
        have back : target <+: output := covers.trans before
        exact plan.proper target member (back.eq_of_length_le inside.length_le)
      · cases impossible
    · obtain ⟨kind, present⟩ := Option.ne_none_iff_exists'.mp old
      have same := extended.keeps path kind present
      rw [file] at same
      exact laid.above path before (present.trans same.symm)
  written entry present := by
    rw [extended.writes] at present
    rcases List.mem_append.mp present with early | late
    · obtain ⟨kind, found⟩ := Option.ne_none_iff_exists'.mp (laid.written entry early)
      rw [extended.keeps entry.1 kind found]
      exact Option.some_ne_none kind
    · exact (extended.inside entry late).2
  distinct := by
    rw [extended.writes, List.map_append, List.nodup_append]
    refine ⟨laid.distinct, extended.distinct, ?_⟩
    rintro path early other late rfl
    obtain ⟨entry, present, rfl⟩ := List.mem_map.mp early
    obtain ⟨again, added, same⟩ := List.mem_map.mp late
    have below : target <+: entry.1 := same ▸ (extended.inside again added).1
    exact laid.written entry present (laid.fresh plan known member new below)

end Steps

variable [DecidableEq ν]

def Action.writes : Action ν γ → List (List ν × γ)
  | .copyFile _ content path => [(path, content)]
  | .copyTree listing content path => fileWrites path content listing.entries
  | .write content path => [(path, content)]

def Action.single : Action ν γ → Bool
  | .copyTree _ _ _ => false
  | _ => true

section Single

variable {target : List ν} {disk next : Disk ν γ}

theorem extends_file {content : γ} (fresh : disk.kind target = none)
    (kind : next.kind = fun other => if other = target then some .file else disk.kind other)
    (writes : next.writes = disk.writes ++ [(target, content)]) :
    Extends disk target [(target, content)] next where
  keeps path found present := by
    have other : path ≠ target := by
      rintro rfl
      rw [present] at fresh
      cases fresh
    simp only [kind, if_neg other, present]
  adds path found absent present := by
    rw [kind] at present
    simp only at present
    split_ifs at present with same
    · exact Or.inl (same ▸ List.prefix_rfl)
    · rw [absent] at present
      cases present
  writes := writes
  distinct := List.pairwise_singleton _ _
  inside entry member := by
    rw [List.mem_singleton.mp member, kind]
    exact ⟨List.prefix_rfl, by simp⟩

theorem copyTree_extends (listing : Listing ν) (content : List ν → γ)
    (fresh : ∀ path, target <+: path → disk.kind path = none)
    (passable : ∀ path, path <+: target → disk.kind path ≠ some .file) :
    ∃ next, disk.copyTree listing target content = .ok next ∧
      Extends disk target (fileWrites target content listing.entries) next := by
  let made : Disk ν γ := { disk with
    kind := fun other =>
      if other <+: target ∧ disk.kind other = none then some .folder else disk.kind other }
  have folders : disk.makeFolders target = .ok made :=
    makeFolders_ok (fresh target List.prefix_rfl) passable
  have kept : ∀ path kind, disk.kind path = some kind → made.kind path = some kind := by
    intro path kind present
    simp [made, present]
  have laid : ∀ front, front <+: target → made.kind front = some .folder := by
    intro front before
    cases present : disk.kind front with
    | none => simp [made, before, present]
    | some kind =>
      cases kind with
      | folder => exact kept front .folder present
      | file => exact absurd present (passable front before)
  have empty : ∀ rest, rest ≠ [] → made.kind (target ++ rest) = none := by
    intro rest filled
    have beyond : ¬ target ++ rest <+: target := by
      intro before
      have short := before.length_le
      have positive := List.length_pos_iff.mpr filled
      rw [List.length_append] at short
      omega
    simp [made, beyond, fresh (target ++ rest) (List.prefix_append target rest)]
  obtain ⟨final, copiedAll, copied⟩ := copyEntries_ok listing content laid empty
  have away : ∀ path, disk.kind path ≠ none → ∀ rest, rest ≠ [] → path ≠ target ++ rest := by
    rintro path present rest - rfl
    exact present (fresh _ (List.prefix_append target rest))
  refine ⟨final, ?_, ?_⟩
  · rw [Disk.copyTree, folders, ok_bind, copiedAll]
  · exact {
      keeps := fun path kind present => by
        rw [copied.outside path (away path (by rw [present]; exact Option.some_ne_none kind))]
        exact kept path kind present
      adds := fun path kind absent present => by
        by_cases below : target <+: path
        · exact Or.inl below
        · have outside : ∀ rest, rest ≠ [] → path ≠ target ++ rest := by
            rintro rest - rfl
            exact below (List.prefix_append target rest)
          rw [copied.outside path outside] at present
          simp only [made, absent, and_true] at present
          split_ifs at present with way
          · exact Or.inr ⟨(Option.some.inj present).symm, way,
              fun same => below (same ▸ List.prefix_rfl)⟩
      writes := copied.writes
      distinct := by
        rw [fileWrites, List.map_map]
        have names : ((listing.entries.filter fun entry => entry.2 = .file).map Prod.fst).Nodup :=
          listing.distinct.sublist (List.filter_sublist.map Prod.fst)
        have joined : ((listing.entries.filter fun entry => entry.2 = .file).map Prod.fst |>.map
            (target ++ ·)).Nodup :=
          List.Nodup.map (fun first second => List.append_cancel_left) names
        rw [List.map_map] at joined
        exact joined
      inside := fun entry member => by
        obtain ⟨item, listed, rfl⟩ := List.mem_map.mp member
        obtain ⟨present, -⟩ := List.mem_filter.mp listed
        refine ⟨List.prefix_append target item.1, ?_⟩
        rw [(copied.inside item.1 item.2 (listing.named item present)).mpr present]
        exact Option.some_ne_none _ }

theorem perform_extends (action : Action ν γ)
    (fresh : ∀ path, action.path <+: path → disk.kind path = none)
    (passable : ∀ path, path <+: action.path → disk.kind path ≠ some .file)
    (parent : action.single = true → disk.kind action.path.dropLast = some .folder) :
    ∃ next, perform disk action = .ok next ∧ Extends disk action.path action.writes next := by
  have absent := fresh action.path List.prefix_rfl
  cases action with
  | copyFile name content path =>
    exact ⟨_, copyFile_ok name content absent (parent rfl), extends_file absent rfl rfl⟩
  | copyTree listing content path => exact copyTree_extends listing content fresh passable
  | write content path =>
    exact ⟨_, write_ok content absent (parent rfl), extends_file absent rfl rfl⟩

end Single

theorem laid_of_makeFolders {output way target : List ν} {targets : List (List ν)}
    {disk made : Disk ν γ} (empty : ∀ path, output <+: path → disk.kind path = none)
    (unwritten : disk.writes = []) (below : output <+: way) (member : target ∈ targets)
    (before : way <+: target) (proper : way ≠ target) (ran : disk.makeFolders way = .ok made) :
    Laid output targets [] made ∧ (∀ front, front <+: way → made.kind front = some .folder) ∧
      made.writes = [] := by
  obtain ⟨passable, rfl⟩ := makeFolders_inv ran
  have laid : ∀ front, front <+: way →
      (if front <+: way ∧ disk.kind front = none then some Kind.folder else disk.kind front) =
        some .folder := by
    intro front prior
    cases present : disk.kind front with
    | none => rw [if_pos ⟨prior, rfl⟩]
    | some kind =>
      cases kind with
      | folder => simp
      | file => exact absurd present (passable front prior)
  refine ⟨?_, laid, unwritten⟩
  exact {
    below := fun path kind inside found => by
      simp only [empty path inside, and_true] at found
      split_ifs at found with prior
      · have strict : path ≠ target := fun same =>
          proper (before.eq_of_length_le (same ▸ prior).length_le)
        exact Or.inr ⟨(Option.some.inj found).symm, target, member, prior.trans before, strict⟩
    above := fun path prior file => by
      cases (laid path (prior.trans below)).symm.trans file
    written := fun entry present => by
      rw [unwritten] at present
      exact absurd present List.not_mem_nil
    distinct := by
      rw [unwritten]
      exact List.nodup_nil }

/-- A plan runs to its end: every target is new when its turn comes, and no file is written
twice. -/
theorem performAll_laid {output : List ν} {targets : List (List ν)} (plan : Targets output targets)
    (actions : List (Action ν γ)) {done : List (List ν)} {disk : Disk ν γ}
    (laid : Laid output targets done disk) (known : ∀ target ∈ done, target ∈ targets)
    (planned : ∀ action ∈ actions, action.path ∈ targets ∧ action.path ∉ done)
    (once : (actions.map Action.path).Nodup)
    (parents : ∀ action ∈ actions, action.single = true →
      disk.kind action.path.dropLast = some .folder) :
    ∃ final, performAll actions disk = (final, none) ∧
      Laid output targets (done ++ actions.map Action.path) final ∧
      final.writes = disk.writes ++ actions.flatMap Action.writes := by
  induction actions generalizing done disk with
  | nil => exact ⟨disk, rfl, by simpa using laid, by simp⟩
  | cons action later ih =>
    obtain ⟨member, new⟩ := planned action List.mem_cons_self
    obtain ⟨next, performed, extended⟩ := perform_extends action
      (fun path below => laid.fresh plan known member new below)
      (fun path way => laid.passable plan known member new way)
      (parents action List.mem_cons_self)
    rw [List.map_cons, List.nodup_cons] at once
    obtain ⟨final, ran, reached, writes⟩ := ih (laid.extend plan known member new extended)
      (by
        intro target finished
        rcases List.mem_append.mp finished with early | last
        · exact known target early
        · exact List.mem_singleton.mp last ▸ member)
      (by
        intro other listed
        obtain ⟨inside, absent⟩ := planned other (List.mem_cons_of_mem action listed)
        refine ⟨inside, fun finished => ?_⟩
        rcases List.mem_append.mp finished with early | last
        · exact absent early
        · exact once.1 (List.mem_singleton.mp last ▸ List.mem_map_of_mem listed))
      once.2
      (fun other listed alone => extended.keeps _ _
        (parents other (List.mem_cons_of_mem action listed) alone))
    refine ⟨final, ?_, ?_, ?_⟩
    · rw [performAll, performed]
      exact ran
    · rw [List.map_cons, List.append_cons]
      exact reached
    · rw [writes, extended.writes, List.flatMap_cons, List.append_assoc]

end Plan
end Chimaera.Base.Folders
