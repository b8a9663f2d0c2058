import Chimaera.Base.Folders
import Chimaera.Base.Shell
import Chimaera.Session.Document

/-! `runner.stage`: the guest part of a session is laid out below a new directory, in the place it
will have in the guest. The files are the bridge and its Python module, the routes, the install
trees, the session document and the start script. -/

namespace Chimaera.Session
open Base.Text Base.Unsigned Base.Folders

inductive Content where
  | copied (source : Path)
  | session (document : Entries)
  | script (content : Line)

inductive StageFailure where
  | valueError (message : Line)
  | osError (message : Line)
  | files (failure : Failure Line)

structure Sources where
  isFile : Path → Bool
  isDirectory : Path → Bool
  listing : Path → Listing Line

def shellSafe (c : Char) : Bool := c.isAlphanum || (text "_@%+=:,./-").contains c

/-- `shlex.quote` -/
def quote (value : Line) : Line := Base.Shell.quote shellSafe value

def startScript (guestRoot : Line) : Line :=
  text "#!/usr/bin/env bash\nset -e\ncd " ++ quote guestRoot ++ text "\n" ++
  text "export PYTHONPATH=" ++ quote (guestRoot ++ text "/runtime") ++ text "\n" ++
  text "exec python3 -m chimaera_ros.runner run session.json --side guest --guest-binary " ++
  quote (guestRoot ++ text "/runtime/guest_bridge") ++ text "\n"

section

variable (sources : Sources) (module package : Path) (manifest : Manifest)

def guestBinary : Path := package.join (Path.parse (text "lib/chimaera_ros_bridge/guest_bridge"))

def stageRoot (output : Path) : Path :=
  output.join (Path.parse (manifest.deploy.guestRoot.val.dropWhile (· = '/')))

def copyDirectory (source : Path) (listing : Listing Line) (path : List Line) :
    Action Line Content :=
  .copyTree listing (fun rest => .copied { source with parts := source.parts ++ rest }) path

def stageActions (root : List Line) : List (Action Line Content) :=
  [.copyFile (some (text "guest_bridge")) (.copied (guestBinary package))
      (root ++ [text "runtime", text "guest_bridge"]),
    copyDirectory module ((sources.listing module).without (text "__pycache__"))
      (root ++ [text "runtime", text "chimaera_ros"]),
    .copyFile (Path.parse manifest.routes).parts.getLast?
      (.copied (Path.parse manifest.routes)) (root ++ [text "routes.json"])] ++
  manifest.deploy.installTrees.val.map (fun tree =>
    copyDirectory (Path.parse tree.source) (sources.listing (Path.parse tree.source))
      (root ++ tree.path.parts)) ++
  [.write (.session manifest.staged) (root ++ [text "session.json"]),
    .write (.script (startScript manifest.deploy.guestRoot)) (root ++ [text "guest_start"])]

def invalidSource (output source : Path) : Bool :=
  !sources.isDirectory source || source = output || output.parents.contains source

def stage (platform : Platform) (output : Path) (disk : Disk Line Content) :
    Disk Line Content × Except StageFailure Path :=
  match platform.resolve output with
  | .error message => (disk, .error (.osError message))
  | .ok output =>
    if disk.kind output.parts ≠ none then
      (disk, .error (.valueError (text "Stage output must not exist: " ++ output.printed)))
    else if !sources.isFile (guestBinary package) then
      (disk, .error (.valueError (text "Build the guest bridge before staging")))
    else
      let trees := manifest.deploy.installTrees.val.map fun tree => Path.parse tree.source
      match (package :: trees).find? (invalidSource sources output) with
      | some source =>
        (disk, .error (.valueError
          (text "Invalid staging source or output nested in source: " ++ source.printed)))
      | none =>
        let root := stageRoot manifest output
        match disk.makeFolders (root.parts ++ [text "runtime"]) with
        | .error failure => (disk, .error (.files failure))
        | .ok made =>
          match performAll (stageActions sources module package manifest root.parts) made with
          | (final, some failure) => (final, .error (.files failure))
          | (final, none) => (final, .ok root)

end

/-! ## The targets lie apart -/

def Apart (first second : List Line) : Prop := ¬ first <+: second ∧ ¬ second <+: first

instance (first second : List Line) : Decidable (Apart first second) :=
  inferInstanceAs (Decidable (¬ _ ∧ ¬ _))

instance : Std.Symm Apart where
  symm _ _ apart := ⟨apart.2, apart.1⟩

theorem apart_of_head {first second : List Line} (filled : first ≠ []) (named : second ≠ [])
    (different : first.head? ≠ second.head?) : Apart first second := by
  obtain ⟨name, rest, rfl⟩ := List.exists_cons_of_ne_nil filled
  obtain ⟨other, later, rfl⟩ := List.exists_cons_of_ne_nil named
  have heads : name ≠ other := fun same => different (congrArg some same)
  constructor
  · intro before
    exact heads (List.cons_prefix_cons.mp before).1
  · intro before
    exact heads (List.cons_prefix_cons.mp before).1.symm

theorem apart_of_overlaps {tree previous : Tree} (clear : ¬ tree.path.Overlaps previous.path) :
    Apart previous.path.parts tree.path.parts := by
  have roots : tree.path.root = previous.path.root := tree.inside.1.trans previous.inside.1.symm
  have different : tree.path.parts ≠ previous.path.parts := fun same =>
    clear (Or.inl (Path.eq_of_root_parts roots same))
  constructor
  · intro before
    exact clear (Or.inr (Or.inr (Path.mem_parents.mpr ⟨roots.symm, before, different.symm⟩)))
  · intro before
    exact clear (Or.inr (Or.inl (Path.mem_parents.mpr ⟨roots, before, different⟩)))

def firstNames : List (List Line) :=
  [[text "runtime", text "guest_bridge"], [text "runtime", text "chimaera_ros"],
    [text "routes.json"]]

def lastNames : List (List Line) := [[text "session.json"], [text "guest_start"]]

theorem head_of_session {names : List Line} (member : names ∈ firstNames ++ lastNames) :
    names ≠ [] ∧ ∃ name ∈ runtimeNames, names.head? = some name := by
  simp only [firstNames, lastNames, List.cons_append, List.nil_append, List.mem_cons,
    List.not_mem_nil, or_false] at member
  rcases member with rfl | rfl | rfl | rfl | rfl
  · exact ⟨List.cons_ne_nil _ _, text "runtime", by decide, rfl⟩
  · exact ⟨List.cons_ne_nil _ _, text "runtime", by decide, rfl⟩
  · exact ⟨List.cons_ne_nil _ _, text "routes.json", by decide, rfl⟩
  · exact ⟨List.cons_ne_nil _ _, text "session.json", by decide, rfl⟩
  · exact ⟨List.cons_ne_nil _ _, text "guest_start", by decide, rfl⟩

theorem tree_apart (tree : Tree) {names : List Line} (member : names ∈ firstNames ++ lastNames) :
    Apart names tree.path.parts := by
  obtain ⟨filled, name, own, head⟩ := head_of_session member
  apply apart_of_head filled tree.inside.2.2
  intro same
  rw [head] at same
  exact tree.apart name same.symm own

def Manifest.targets (manifest : Manifest) : List (List Line) :=
  firstNames ++ manifest.deploy.installTrees.val.map (fun tree => tree.path.parts) ++ lastNames

theorem Manifest.targets_apart (manifest : Manifest) : manifest.targets.Pairwise Apart := by
  have trees : (manifest.deploy.installTrees.val.map fun tree => tree.path.parts).Pairwise
      Apart := by
    rw [List.pairwise_map]
    exact manifest.deploy.installTrees.property.imp fun clear => apart_of_overlaps clear
  unfold Manifest.targets
  rw [List.pairwise_append, List.pairwise_append]
  refine ⟨⟨by decide, trees, ?_⟩, by decide, ?_⟩
  · intro names own target listed
    obtain ⟨tree, -, rfl⟩ := List.mem_map.mp listed
    exact tree_apart tree (List.mem_append_left _ own)
  · intro names listed own last
    rcases List.mem_append.mp listed with early | later
    · have fixed : ∀ first ∈ firstNames, ∀ second ∈ lastNames, Apart first second := by decide
      exact fixed names early own last
    · obtain ⟨tree, -, rfl⟩ := List.mem_map.mp later
      exact symm (tree_apart tree (List.mem_append_right _ last))

theorem Manifest.targets_filled (manifest : Manifest) : ∀ names ∈ manifest.targets, names ≠ [] := by
  intro names member
  rcases List.mem_append.mp member with early | last
  · rcases List.mem_append.mp early with first | listed
    · exact (head_of_session (List.mem_append_left _ first)).1
    · obtain ⟨tree, -, rfl⟩ := List.mem_map.mp listed
      exact tree.inside.2.2
  · exact (head_of_session (List.mem_append_right _ last)).1

/-! ## The run of `stage` -/

theorem stageRoot_parts (manifest : Manifest) (output : Path) :
    (stageRoot manifest output).parts =
      output.parts ++ (Path.parse manifest.deploy.guestRoot).parts := by
  rw [stageRoot, Path.parse_lstrip]
  rfl

section

variable (sources : Sources) (module package : Path) (manifest : Manifest)

theorem stageActions_paths (root : List Line) :
    (stageActions sources module package manifest root).map Action.path =
      manifest.targets.map (root ++ ·) := by
  simp only [stageActions, Manifest.targets, firstNames, lastNames, List.map_append,
    List.map_cons, List.map_nil, List.map_map]
  rfl

theorem targets_plan {output root : List Line} (below : output <+: root) :
    Targets output (manifest.targets.map (root ++ ·)) where
  inside target member := by
    obtain ⟨names, -, rfl⟩ := List.mem_map.mp member
    exact below.trans (List.prefix_append root names)
  proper target member := by
    obtain ⟨names, listed, rfl⟩ := List.mem_map.mp member
    intro same
    have filled := List.length_pos_iff.mpr (manifest.targets_filled names listed)
    have short := below.length_le
    have length := congrArg List.length same
    rw [List.length_append] at length
    omega
  apart first here second there before := by
    obtain ⟨names, listed, rfl⟩ := List.mem_map.mp here
    obtain ⟨others, present, rfl⟩ := List.mem_map.mp there
    by_contra different
    have distinct : names ≠ others := fun same => different (by rw [same])
    have apart := List.Pairwise.forall manifest.targets_apart listed present distinct
    exact apart.1 ((List.prefix_append_right_inj root).mp before)

theorem targets_once (root : List Line) : (manifest.targets.map (root ++ ·)).Nodup := by
  apply List.Nodup.map
  · intro first second same
    exact List.append_cancel_left same
  · refine List.Pairwise.imp ?_ manifest.targets_apart
    rintro first second apart rfl
    exact apart.1 List.prefix_rfl

theorem stageActions_parents (root : List Line) :
    ∀ action ∈ stageActions sources module package manifest root, action.single = true →
      action.path.dropLast = root ∨ action.path.dropLast = root ++ [text "runtime"] := by
  intro action member alone
  have short : ∀ name : Line, (root ++ [name]).dropLast = root := fun name =>
    List.dropLast_concat
  have long : (root ++ [text "runtime", text "guest_bridge"]).dropLast =
      root ++ [text "runtime"] := by
    rw [List.append_cons]
    exact List.dropLast_concat
  rcases List.mem_append.mp member with early | last
  · rcases List.mem_append.mp early with first | listed
    · simp only [List.mem_cons, List.not_mem_nil, or_false] at first
      rcases first with rfl | rfl | rfl
      · exact Or.inr long
      · cases alone
      · exact Or.inl (short _)
    · obtain ⟨tree, -, rfl⟩ := List.mem_map.mp listed
      cases alone
  · simp only [List.mem_cons, List.not_mem_nil, or_false] at last
    rcases last with rfl | rfl
    · exact Or.inl (short _)
    · exact Or.inl (short _)

section

variable (root : List Line)

theorem bridge_target : root ++ [text "runtime", text "guest_bridge"] ∈
    manifest.targets.map (root ++ ·) :=
  List.mem_map_of_mem (List.mem_append_left _ (List.mem_append_left _ List.mem_cons_self))

theorem bridge_below :
    root ++ [text "runtime"] <+: root ++ [text "runtime", text "guest_bridge"] :=
  (List.prefix_append_right_inj root).mpr (List.prefix_append [text "runtime"] [_])

theorem bridge_proper :
    root ++ [text "runtime"] ≠ root ++ [text "runtime", text "guest_bridge"] := by
  intro same
  have tails := List.append_cancel_left same
  cases tails

end

/-- A run of `stage` either leaves the disk as it was, or writes every file of its actions, each
to a place of its own. -/
theorem stage_cases (platform : Platform) (output : Path) {disk : Disk Line Content}
    (rooted : disk.Rooted) (unwritten : disk.writes = []) :
    (∃ failure, stage sources module package manifest platform output disk =
        (disk, .error failure) ∧ ∀ target, failure ≠ .files (.alreadyExists target)) ∨
      ∃ resolved final, platform.resolve output = .ok resolved ∧
        stage sources module package manifest platform output disk =
          (final, .ok (stageRoot manifest resolved)) ∧
        (final.writes.map Prod.fst).Nodup ∧
        final.writes = (stageActions sources module package manifest
          (stageRoot manifest resolved).parts).flatMap Action.writes := by
  unfold stage
  cases platform.resolve output with
  | error message => exact Or.inl ⟨_, rfl, fun target same => by cases same⟩
  | ok resolved =>
    simp only
    split_ifs with present missing
    · exact Or.inl ⟨_, rfl, fun target same => by cases same⟩
    · exact Or.inl ⟨_, rfl, fun target same => by cases same⟩
    · split
      · exact Or.inl ⟨_, rfl, fun target same => by cases same⟩
      · have absent : disk.kind resolved.parts = none := not_not.mp present
        have empty : ∀ path, resolved.parts <+: path → disk.kind path = none := fun path below =>
          rooted.below absent below
        have below : resolved.parts <+: (stageRoot manifest resolved).parts := by
          rw [stageRoot_parts]
          exact List.prefix_append _ _
        have runtime := below.trans (List.prefix_append _ [text "runtime"])
        split
        · rename_i failure failed
          have blocked := makeFolders_error (empty _ runtime) failed
          exact Or.inl ⟨_, rfl, fun target same => by rw [blocked] at same; cases same⟩
        · rename_i made folders
          have plan := targets_plan manifest below
          have paths := stageActions_paths sources module package manifest
            (stageRoot manifest resolved).parts
          obtain ⟨laid, on, clean⟩ := laid_of_makeFolders empty unwritten runtime
            (bridge_target manifest _) (bridge_below _) (bridge_proper _) folders
          obtain ⟨final, ran, reached, writes⟩ := performAll_laid plan
            (stageActions sources module package manifest (stageRoot manifest resolved).parts) laid
            (fun target finished => absurd finished List.not_mem_nil)
            (fun action listed =>
              ⟨paths ▸ List.mem_map_of_mem listed, List.not_mem_nil⟩)
            (paths ▸ targets_once manifest _)
            (by
              intro action listed alone
              rcases stageActions_parents sources module package manifest _ action listed alone
                with top | inner
              · rw [top]
                exact on _ (List.prefix_append _ _)
              · rw [inner]
                exact on _ List.prefix_rfl)
          rw [ran]
          rw [clean, List.nil_append] at writes
          exact Or.inr ⟨resolved, final, rfl, rfl, reached.distinct, writes⟩

end

theorem stage_distinct {sources : Sources} {module package : Path} {manifest : Manifest}
    {platform : Platform} {output : Path} {disk final : Disk Line Content}
    {outcome : Except StageFailure Path} (rooted : disk.Rooted) (unwritten : disk.writes = [])
    (ran : stage sources module package manifest platform output disk = (final, outcome)) :
    (final.writes.map Prod.fst).Nodup := by
  rcases stage_cases sources module package manifest platform output rooted unwritten with
    ⟨failure, failed, -⟩ | ⟨resolved, all, -, done, distinct, -⟩
  · obtain ⟨rfl, -⟩ := Prod.mk.inj (ran.symm.trans failed)
    rw [unwritten]
    exact List.nodup_nil
  · obtain ⟨rfl, -⟩ := Prod.mk.inj (ran.symm.trans done)
    exact distinct

/-! ## Install trees in the guest -/

theorem not_apart_of_overlaps {path previous : Path} (overlaps : path.Overlaps previous) :
    ¬ Apart path.parts previous.parts := by
  rintro ⟨before, after⟩
  rcases overlaps with rfl | inside | outside
  · exact before List.prefix_rfl
  · exact before (Path.mem_parents.mp inside).2.1
  · exact after (Path.mem_parents.mp outside).2.1

theorem join_parts {root path : Path} (relative : path.root = .relative) :
    (root.join path).parts = root.parts ++ path.parts := by
  rw [Path.join, if_neg (by simp [Path.isAbsolute, relative])]

theorem join_apart {root path previous : Path} (relative : path.root = .relative)
    (inside : previous.root = .relative) (apart : Apart path.parts previous.parts) :
    ¬ (root.join path).Overlaps (root.join previous) := by
  intro overlaps
  have together := not_apart_of_overlaps overlaps
  rw [join_parts relative, join_parts inside, Apart, List.prefix_append_right_inj,
    List.prefix_append_right_inj] at together
  exact together apart

theorem parse_runtimeName {name : Line} (member : name ∈ runtimeNames) :
    Path.parse name = ⟨.relative, [name]⟩ := by
  simp only [runtimeNames, List.mem_cons, List.not_mem_nil, or_false] at member
  rcases member with rfl | rfl | rfl | rfl <;> decide

/-- The destinations of an accepted manifest lie below the guest root, apart from one another and
from the session's own files. Staging writes no file twice and copies no tree to a path that
exists. -/
theorem staged_trees_disjoint (platform : Platform) (path : Path) (manifest : Manifest) :
    load platform path = .ok manifest →
    (∀ tree ∈ manifest.deploy.installTrees.val,
      Path.parse manifest.deploy.guestRoot ∈
        ((Path.parse manifest.deploy.guestRoot).join tree.path).parents) ∧
    (manifest.deploy.installTrees.val.Pairwise fun previous tree =>
      ¬ ((Path.parse manifest.deploy.guestRoot).join tree.path).Overlaps
        ((Path.parse manifest.deploy.guestRoot).join previous.path)) ∧
    (∀ tree ∈ manifest.deploy.installTrees.val, ∀ name ∈ runtimeNames,
      ¬ ((Path.parse manifest.deploy.guestRoot).join tree.path).Overlaps
        ((Path.parse manifest.deploy.guestRoot).join (Path.parse name))) ∧
    ∀ (sources : Sources) (module package output : Path) (disk : Disk Line Content),
      disk.Rooted → disk.writes = [] →
      ((stage sources module package manifest platform output disk).1.writes.map Prod.fst).Nodup ∧
      ∀ target, ∀ failure,
        (stage sources module package manifest platform output disk).2 = .error failure →
          failure ≠ .files (.alreadyExists target) := by
  intro _
  refine ⟨?_, ?_, ?_, ?_⟩
  · intro tree _
    obtain ⟨relative, -, filled⟩ := tree.inside
    have root : ((Path.parse manifest.deploy.guestRoot).join tree.path).root =
        (Path.parse manifest.deploy.guestRoot).root := by
      rw [Path.join, if_neg (by simp [Path.isAbsolute, Tree.path, relative])]
    have parts : ((Path.parse manifest.deploy.guestRoot).join tree.path).parts =
        (Path.parse manifest.deploy.guestRoot).parts ++ tree.path.parts := join_parts relative
    rw [Path.mem_parents, root, parts]
    refine ⟨rfl, List.prefix_append _ _, ?_⟩
    intro same
    exact filled (List.append_right_eq_self.mp same.symm)
  · refine List.Pairwise.imp ?_ manifest.deploy.installTrees.property
    intro previous tree clear
    exact join_apart tree.inside.1 previous.inside.1 (symm (apart_of_overlaps clear))
  · intro tree _ name member
    have named := parse_runtimeName member
    rw [named]
    refine join_apart tree.inside.1 rfl (apart_of_head tree.inside.2.2 (List.cons_ne_nil _ _) ?_)
    intro same
    exact tree.apart name same member
  · intro sources module package output disk rooted unwritten
    refine ⟨stage_distinct rooted unwritten rfl, ?_⟩
    intro target failure failed
    rcases stage_cases sources module package manifest platform output rooted unwritten with
      ⟨found, ran, other⟩ | ⟨resolved, final, -, ran, -⟩
    · rw [ran] at failed
      exact Except.error.inj failed ▸ other target
    · rw [ran] at failed
      cases failed

def sharedFolder : Platform where
  resolve path := .ok path
  read path :=
    if path = Path.parse (text "/session.json") then
      .ok (.object [
        (text "version", .int 1), (text "routes", .string (text "routes.json")),
        (text "host", .object [(text "domain_id", .int 0), (text "processes", .array [])]),
        (text "guest", .object [(text "domain_id", .int 1), (text "processes", .array [])]),
        (text "deploy", .object [(text "install_trees", .array [
          .object [(text "source", .string (text "/b")),
            (text "destination", .string (text "a//b"))],
          .object [(text "source", .string (text "/c")),
            (text "destination", .string (text "./a/c"))]])])])
    else .ok (.object [(text "version", .int 1), (text "topics", .array [.null])])
  isIdentifier _ := true

def singleFiles : Sources where
  isFile _ := true
  isDirectory _ := true
  listing _ := {
    entries := [([text "file"], .file)]
    distinct := List.pairwise_singleton _ _
    named := by
      intro entry member
      rw [List.mem_singleton.mp member]
      exact List.cons_ne_nil _ _
    rooted := by
      intro done entry later split front before filled proper
      cases done with
      | nil =>
        obtain ⟨rfl, -⟩ := List.cons.inj split
        rcases List.prefix_cons_iff.mp before with rfl | ⟨rest, rfl, tail⟩
        · exact absurd rfl filled
        · exact absurd (List.prefix_nil.mp tail ▸ rfl) proper
      | cons first done => cases done <;> cases split }

def emptyDisk : Disk Line Content where
  kind path := if path = [] then some .folder else none
  writes := []

theorem emptyDisk_rooted : emptyDisk.Rooted := by
  intro path present front before proper
  have top : path = [] := by
    by_contra inside
    exact present (if_neg inside)
  rw [top] at before proper
  exact absurd (List.prefix_nil.mp before) proper

theorem sharedFolder_disjoint :
    ∃ manifest, load sharedFolder (Path.parse (text "/session.json")) = .ok manifest ∧
      manifest.deploy.installTrees.val.map (fun tree => tree.path.parts) =
        [[text "a", text "b"], [text "a", text "c"]] ∧
      ((stage singleFiles (Path.parse (text "/module")) (Path.parse (text "/package")) manifest
        sharedFolder (Path.parse (text "/out")) emptyDisk).1.writes.map Prod.fst).Nodup := by
  have found : (load sharedFolder (Path.parse (text "/session.json"))).toOption.map
      (fun manifest => manifest.deploy.installTrees.val.map fun tree => tree.path.parts) =
        some [[text "a", text "b"], [text "a", text "c"]] := by decide +kernel
  obtain ⟨manifest, accepted, trees⟩ := Option.map_eq_some_iff.mp found
  have loaded := eq_ok_of_toOption accepted
  have disjoint := staged_trees_disjoint _ _ manifest loaded
  exact ⟨manifest, loaded, trees,
    (disjoint.2.2.2 singleFiles _ _ _ emptyDisk emptyDisk_rooted rfl).1⟩

end Chimaera.Session
