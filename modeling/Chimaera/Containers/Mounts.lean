import Chimaera.Containers.Config

/-! Mount isolation. `load` compares targets as pure paths, which keep exactly two leading
slashes apart from one; the container resolves both to the same place. So what `load` accepts
is isolated up to the targets that begin with two slashes. -/

namespace Chimaera.Containers
open Base.Text Session

/-- A target as the container resolves it: repeated slashes and `.` are of no account. -/
def resolvedTarget (target : Line) : List Line :=
  (target.splitOn '/').filter fun part => part ≠ [] ∧ part ≠ text "."

def Apart (first second : List Line) : Prop := ¬first <+: second ∧ ¬second <+: first

instance (first second : List Line) : Decidable (Apart first second) :=
  inferInstanceAs (Decidable (_ ∧ _))

structure Isolated (targets : List (List Line)) : Prop where
  below : ∀ target ∈ targets, target ≠ []
  output : ∀ target ∈ targets, Apart target [text "output"]
  apart : targets.Pairwise Apart

/-- Targets with two leading slashes are below the root and outside `/output`, and no other
target is at, above or below one of them. -/
structure Unmasked (targets : List Line) : Prop where
  outside : ∀ target ∈ targets, (Path.parse target).root = .doubleSlash →
    (Path.parse target).parts ≠ [] ∧ (Path.parse target).parts.head? ≠ some (text "output")
  apart : targets.Pairwise fun first second => (Path.parse first).root ≠ (Path.parse second).root →
    Apart (Path.parse first).parts (Path.parse second).parts

theorem apart_comm {first second : List Line} : Apart first second ↔ Apart second first :=
  and_comm

theorem apart_single {parts : List Line} {name : Line} :
    Apart parts [name] ↔ parts ≠ [] ∧ parts.head? ≠ some name := by
  cases parts with
  | nil => simp [Apart]
  | cons first rest =>
    simp only [Apart, List.cons_prefix_cons, List.nil_prefix, and_true, ne_eq, reduceCtorEq,
      not_false_eq_true, List.head?_cons, Option.some.injEq, true_and]
    constructor
    · rintro ⟨-, other⟩ same
      exact other same.symm
    · intro other
      exact ⟨fun same => other same.1, fun same => other same.symm⟩

theorem overlaps_iff {path other : Path} :
    path.Overlaps other ↔ path.root = other.root ∧ ¬Apart path.parts other.parts := by
  have same : path = other ↔ path.root = other.root ∧ path.parts = other.parts := by
    cases path
    cases other
    rw [Session.Path.mk.injEq]
  rw [Path.Overlaps, Path.mem_parents, Path.mem_parents, same, Apart, not_and_or, not_not, not_not]
  constructor
  · rintro (⟨root, equal⟩ | ⟨root, above, -⟩ | ⟨root, inside, -⟩)
    · exact ⟨root, .inl (equal ▸ List.prefix_rfl)⟩
    · exact ⟨root, .inl above⟩
    · exact ⟨root.symm, .inr inside⟩
  · rintro ⟨root, related⟩
    by_cases equal : path.parts = other.parts
    · exact .inl ⟨root, equal⟩
    · rcases related with above | inside
      · exact .inr (.inl ⟨root, above, equal⟩)
      · exact .inr (.inr ⟨root.symm, inside, Ne.symm equal⟩)

theorem resolvedTarget_printed {target : Line} (absolute : (Path.parse target).isAbsolute = true) :
    resolvedTarget (Path.parse target).printed = (Path.parse target).parts :=
  Path.parts_printed absolute fun _ => Path.component_of_parse

theorem outputPath_eq : outputPath = ⟨.slash, [text "output"]⟩ := by decide +kernel

/-- A target with one leading slash has been compared as it will be resolved. -/
theorem Admitted.outside {target : Path} (admitted : Admitted target)
    (single : target.root = .slash) : Apart target.parts [text "output"] := by
  have reserved := admitted.reserved
  rw [overlaps_iff, outputPath_eq] at reserved
  exact not_not.mp fun related => reserved ⟨single, related⟩

theorem Admitted.rooted {target : Path} (admitted : Admitted target) :
    target.root = .slash ∨ target.root = .doubleSlash := by
  have absolute := admitted.absolute
  cases kind : target.root with
  | relative => simp [Path.isAbsolute, kind] at absolute
  | slash => exact .inl rfl
  | doubleSlash => exact .inr rfl

theorem isolated_iff {targets : List Line}
    (admitted : ∀ target ∈ targets, Admitted (Path.parse target))
    (clear : (targets.map Path.parse).Pairwise fun previous target => ¬target.Overlaps previous) :
    Isolated (targets.map fun target => (Path.parse target).parts) ↔ Unmasked targets := by
  rw [List.pairwise_map] at clear
  constructor
  · intro isolated
    refine ⟨fun target member _ => ?_, ?_⟩
    · exact apart_single.mp (isolated.output _ (List.mem_map_of_mem member))
    · have apart := isolated.apart
      rw [List.pairwise_map] at apart
      apply apart.imp
      intro first second related _
      exact related
  · intro unmasked
    have output : ∀ target ∈ targets, Apart (Path.parse target).parts [text "output"] := by
      intro target member
      rcases (admitted target member).rooted with single | double
      · exact (admitted target member).outside single
      · exact apart_single.mpr (unmasked.outside target member double)
    refine ⟨?_, ?_, ?_⟩
    · intro parts member
      obtain ⟨target, found, rfl⟩ := List.mem_map.mp member
      exact (apart_single.mp (output target found)).1
    · intro parts member
      obtain ⟨target, found, rfl⟩ := List.mem_map.mp member
      exact output target found
    · rw [List.pairwise_map]
      apply (clear.and unmasked.apart).imp
      rintro first second ⟨distinct, others⟩
      by_cases same : (Path.parse first).root = (Path.parse second).root
      · rw [overlaps_iff] at distinct
        exact apart_comm.mp (not_not.mp fun related => distinct ⟨same.symm, related⟩)
      · exact others same

/-- The mounts of an accepted configuration are isolated exactly where no target that begins
with two slashes hides what it overlaps. -/
theorem mounts_isolated_iff {resolve : Line → Except Line Line} {value : Json} {config : Config}
    (loaded : load resolve value = .ok config) :
    Isolated (config.mounts.map fun mount => resolvedTarget mount.target) ↔
      Unmasked (spelledTargets value) := by
  obtain ⟨values, spelled, read⟩ := load_mounts loaded
  obtain ⟨texts, admitted, clear⟩ := loadMounts_ok List.Pairwise.nil read
  have resolved : config.mounts.map (fun mount => resolvedTarget mount.target) =
      (values.map spelledTarget).map fun target => (Path.parse target).parts := by
    have targets : config.mounts.map (fun mount => resolvedTarget mount.target) =
        (config.mounts.map Mount.target).map resolvedTarget := by rw [List.map_map]; rfl
    rw [targets, texts, List.map_map, List.map_map]
    apply List.map_congr_left
    intro value member
    exact resolvedTarget_printed (admitted value member).absolute
  rw [resolved, spelled]
  apply isolated_iff
  · intro target member
    obtain ⟨value, found, rfl⟩ := List.mem_map.mp member
    exact admitted value found
  · rwa [List.map_map]

def mounting (targets : List String) : Json :=
  .object [(text "image", .string (text "test")),
    (text "command", .array [.string (text "benchmark")]),
    (text "jobs", .array [.object [(text "name", .string (text "one"))]]),
    (text "mounts", .array (targets.map fun target =>
      .object [(text "source", .string (text ".")), (text "target", .string (text target))]))]

def inPlace (source : Line) : Except Line Line := .ok source

theorem mounts_isolated_pair : ∃ config, load inPlace
    (mounting ["/assets/a", "//assets/b"]) = .ok config ∧
    Isolated (config.mounts.map fun mount => resolvedTarget mount.target) := by
  have accepted : (load inPlace (mounting ["/assets/a", "//assets/b"])).toOption.isSome = true := by
    decide +kernel
  obtain ⟨config, found⟩ := Option.isSome_iff_exists.mp accepted
  have loaded := Base.Unsigned.eq_ok_of_toOption found
  refine ⟨config, loaded, (mounts_isolated_iff loaded).mpr ⟨?_, ?_⟩⟩
  · decide +kernel
  · decide +kernel

/-- An input mounted where the results of the job go. -/
theorem masked_output_accepted : ∃ config, load inPlace (mounting ["//output"]) = .ok config ∧
    ¬Isolated (config.mounts.map fun mount => resolvedTarget mount.target) := by
  have accepted : (load inPlace (mounting ["//output"])).toOption.map (fun config =>
      config.mounts.map fun mount => resolvedTarget mount.target) = some [[text "output"]] := by
    decide +kernel
  obtain ⟨config, found, targets⟩ := Option.map_eq_some_iff.mp accepted
  refine ⟨config, Base.Unsigned.eq_ok_of_toOption found, fun isolated => ?_⟩
  rw [targets] at isolated
  exact (isolated.output _ List.mem_cons_self).1 List.prefix_rfl

end Chimaera.Containers
