import Chimaera.Session.Plan
import Chimaera.Session.Staging

/-! The shell scripts that a session writes. `supervise` starts every process through one, which
sources the setup files and leaves the rest to `env`; `stage` writes one into the guest. They are
read back here as the shell reads them, word by word. -/

namespace Chimaera.Session
open Base.Text Base.Unsigned Base.Dictionary Base.Shell

def processScript (setup : List Line) (env : List (Line × Line)) (command : List Line) : Line :=
  text "set -e\n" ++ setup.flatMap (fun path => text "source " ++ quote path ++ text "\n") ++
    (text "exec env " ++ (text " ").intercalate (env.map fun entry =>
      quote (entry.1 ++ text "=" ++ entry.2)) ++
    text " " ++ (text " ").intercalate (command.map quote))

def Plan.script (plan : Plan) (process : Command) : Line :=
  processScript plan.setup plan.env process.command

theorem neutral_shellSafe : Neutral shellSafe = true := by decide

def spoken (line : List Line) : List Token := line.map .word

def openingLines (setup : List Line) : List (List Line) :=
  [text "set", text "-e"] :: setup.map fun path => [text "source", path]

def assignmentWord (entry : Line × Line) : Line := entry.1 ++ text "=" ++ entry.2

def envWords (env : List (Line × Line)) (command : List Line) : List Line :=
  env.map assignmentWord ++ command

/-! ## The utility env -/

def splitAssignments : List Line → List (Line × Line) × List Line
  | [] => ([], [])
  | word :: rest =>
      match word.span (· ≠ '=') with
      | (name, _ :: value) =>
          ((name, value) :: (splitAssignments rest).1, (splitAssignments rest).2)
      | (_, []) => ([], word :: rest)

/-- The variables that `env` sets and the command that it runs; options are left out. -/
def envUtility (words : List Line) : Option (List (Line × Line) × List Line) :=
  if words.head?.bind List.head? = some '-' then none else some (splitAssignments words)

theorem span_equals {name : Line} (plain : '=' ∉ name) (rest : Line) :
    (name ++ '=' :: rest).span (· ≠ '=') = (name, '=' :: rest) := by
  have all : ∀ c ∈ name, decide (c ≠ '=') = true := fun c member =>
    decide_eq_true fun same => plain (same ▸ member)
  have stop : Stops (fun c => decide (c ≠ '=')) ('=' :: rest) := stops_cons (by decide) rest
  obtain ⟨taken, dropped⟩ := takeWhile_run all stop
  rw [List.span_eq_takeWhile_dropWhile, taken, dropped]

theorem splitAssignments_assignment {entry : Line × Line} (plain : '=' ∉ entry.1)
    (words : List Line) :
    splitAssignments (assignmentWord entry :: words) =
      (entry :: (splitAssignments words).1, (splitAssignments words).2) := by
  have found : (assignmentWord entry).span (· ≠ '=') = (entry.1, '=' :: entry.2) := by
    rw [assignmentWord, List.append_assoc]
    exact span_equals plain entry.2
  simp only [splitAssignments, found]

variable {env : List (Line × Line)}

theorem splitAssignments_env (plain : ∀ entry ∈ env, '=' ∉ entry.1) (command : List Line) :
    splitAssignments (envWords env command) =
      (env ++ (splitAssignments command).1, (splitAssignments command).2) := by
  induction env with
  | nil => rfl
  | cons entry rest ih =>
    have later := ih fun entry member => plain entry (List.mem_cons_of_mem _ member)
    have split := splitAssignments_assignment (plain entry List.mem_cons_self)
      (envWords rest command)
    rw [later] at split
    exact split

/-- A command is run as it is if its first word cannot be taken for an assignment. -/
theorem splitAssignments_command {first : Line} {rest : List Line} :
    splitAssignments (first :: rest) = ([], first :: rest) ↔ '=' ∉ first := by
  constructor
  · intro same member
    obtain ⟨name, value, split, plain⟩ := List.eq_append_cons_of_mem member
    have word : first = assignmentWord (name, value) := by
      rw [split, assignmentWord, List.append_assoc]
      rfl
    have entry : '=' ∉ (name, value).1 := plain
    rw [word, splitAssignments_assignment entry] at same
    cases (Prod.mk.inj same).1
  · intro plain
    have all : ∀ c ∈ first, decide (c ≠ '=') = true := fun c member =>
      decide_eq_true fun same => plain (same ▸ member)
    have whole := takeWhile_run all (stops_nil _)
    rw [List.append_nil] at whole
    simp only [splitAssignments, List.span_eq_takeWhile_dropWhile, whole.1, whole.2]

/-- What `env` does with its words, for variables whose names it accepts. -/
theorem envUtility_runs {first : Line} {rest : List Line}
    (filled : env ≠ []) (named : ∀ entry ∈ env, '=' ∉ entry.1 ∧ entry.1.head? ≠ some '-') :
    envUtility (envWords env (first :: rest)) = some (env, first :: rest) ↔ '=' ∉ first := by
  obtain ⟨entry, others, split⟩ := List.exists_cons_of_ne_nil filled
  have option : ¬((envWords env (first :: rest)).head?.bind List.head? = some '-') := by
    have own := (named entry (by rw [split]; exact List.mem_cons_self)).2
    rw [split]
    intro dashed
    cases known : entry.1 with
    | nil => simp [envWords, assignmentWord, known, text] at dashed
    | cons c tail =>
      simp [envWords, assignmentWord, known] at dashed
      exact own (by rw [known, dashed]; rfl)
  have read : splitAssignments (envWords env (first :: rest)) = _ :=
    splitAssignments_env (fun entry member => (named entry member).1) _
  rw [envUtility, if_neg option, read, Option.some.injEq, Prod.mk.injEq, List.append_right_eq_self,
    ← Prod.mk.injEq, Prod.mk.eta, splitAssignments_command]

/-! ## Reading the scripts -/

theorem reads_quoted {words : List Line} (clear : ∀ word ∈ words, '\x00' ∉ word) :
    Reads shellSafe ((text " ").intercalate (words.map quote)) (spoken words) :=
  reads_join neutral_shellSafe clear

theorem reads_literal {source : Line} {words : List Line}
    (clear : ∀ word ∈ words, '\x00' ∉ word)
    (same : (text " ").intercalate (words.map quote) = source) :
    Reads shellSafe source (spoken words) := same ▸ reads_quoted clear

theorem spells_source {path : Line} (clear : '\x00' ∉ path) :
    Spells shellSafe (text "source " ++ quote path ++ text "\n")
      [spoken [text "source", path]] := by
  have word : Reads shellSafe (text "source") (spoken [text "source"]) :=
    reads_literal (by decide) (by decide)
  exact (word.spaced (reads_quote neutral_shellSafe clear)).line (List.cons_ne_nil _ _)

/-- The shell reads the script of a process as the setup files and the words for `env`, whatever
characters are in them. A script with a NUL is never started. -/
theorem processScript_reads {setup : List Line} {command : List Line}
    (files : ∀ path ∈ setup, '\x00' ∉ path) (words : ∀ word ∈ envWords env command, '\x00' ∉ word) :
    script shellSafe (processScript setup env command) =
      some ((openingLines setup ++ [text "exec" :: text "env" :: envWords env command]).map
        spoken) := by
  have first : Spells shellSafe (text "set -e\n") [spoken [text "set", text "-e"]] := by
    have line : Reads shellSafe (text "set -e") (spoken [text "set", text "-e"]) :=
      reads_literal (by decide) (by decide)
    exact line.line (List.cons_ne_nil _ _)
  have sources : Spells shellSafe
      (setup.flatMap fun path => text "source " ++ quote path ++ text "\n")
      (setup.flatMap fun path => [spoken [text "source", path]]) :=
    spells_flatMap fun path member => spells_source (files path member)
  have start : Reads shellSafe (text "exec env") (spoken [text "exec", text "env"]) :=
    reads_literal (by decide) (by decide)
  have assigned : Reads shellSafe ((text " ").intercalate (env.map fun entry =>
      quote (entry.1 ++ text "=" ++ entry.2))) (spoken (env.map assignmentWord)) := by
    have quoted := reads_quoted fun word (member : word ∈ env.map assignmentWord) =>
      words word (List.mem_append_left _ member)
    rw [List.map_map] at quoted
    exact quoted
  have run := reads_quoted fun word (member : word ∈ command) =>
    words word (List.mem_append_right _ member)
  have last := (start.spaced assigned).spaced run
  have whole := (first.append sources).unended last (by simp [spoken])
  rw [processScript]
  refine whole.trans ?_
  rw [← List.map_eq_flatMap]
  simp [openingLines, envWords, spoken, Function.comp_def]

/-- The start of the guest: its directory, the path of the staged runner, and the runner. -/
theorem startScript_reads {guestRoot : Line} (clear : '\x00' ∉ guestRoot) :
    script shellSafe (startScript guestRoot) = some ([
      [text "set", text "-e"], [text "cd", guestRoot],
      [text "export", text "PYTHONPATH=" ++ (guestRoot ++ text "/runtime")],
      [text "exec", text "python3", text "-m", text "chimaera_ros.runner", text "run",
        text "session.json", text "--side", text "guest", text "--guest-binary",
        guestRoot ++ text "/runtime/guest_bridge"]].map spoken) := by
  have below (rest : Line) (plain : '\x00' ∉ rest) : '\x00' ∉ guestRoot ++ rest := by
    rw [List.mem_append]
    exact fun member => member.elim clear plain
  have interpreter : Spells shellSafe (text "#!/usr/bin/env bash\n") [] := fun done => by
    rw [List.append_nil]
    rfl
  have guarded : Reads shellSafe (text "set -e") (spoken [text "set", text "-e"]) :=
    reads_literal (by decide) (by decide)
  have change : Reads shellSafe (text "cd") (spoken [text "cd"]) :=
    reads_literal (by decide) (by decide)
  have directory := change.spaced (reads_quote neutral_shellSafe clear)
  have export_ : Reads shellSafe (text "export") (spoken [text "export"]) :=
    reads_literal (by decide) (by decide)
  have assigned : Reads shellSafe (text "PYTHONPATH=" ++ quote (guestRoot ++ text "/runtime")) _ :=
    reads_assignment neutral_shellSafe (by decide) (by decide) (below (text "/runtime") (by decide))
  have exported := export_.spaced assigned
  have runner : Reads shellSafe
      (text "exec python3 -m chimaera_ros.runner run session.json --side guest --guest-binary")
      (spoken [text "exec", text "python3", text "-m", text "chimaera_ros.runner", text "run",
        text "session.json", text "--side", text "guest", text "--guest-binary"]) :=
    reads_literal (by decide +kernel) (by decide +kernel)
  have start := runner.spaced
    (reads_quote neutral_shellSafe (below (text "/runtime/guest_bridge") (by decide)))
  have lines := (((interpreter.append (guarded.line (by decide))).append
    (directory.line (by simp [spoken]))).append (exported.line (by simp [spoken]))).append
    (start.line (by simp [spoken]))
  have opening : text "#!/usr/bin/env bash\nset -e\ncd " = text "#!/usr/bin/env bash\n" ++
      (text "set -e" ++ (['\n'] ++ (text "cd" ++ text " "))) := by decide
  have naming : text "export PYTHONPATH=" = text "export" ++ (text " " ++ text "PYTHONPATH=") := by
    decide
  have calling :
      text "exec python3 -m chimaera_ros.runner run session.json --side guest --guest-binary " =
        text "exec python3 -m chimaera_ros.runner run session.json --side guest --guest-binary" ++
          text " " := by decide +kernel
  have feed : text "\n" = ['\n'] := rfl
  simp only [quote] at assigned exported lines ⊢
  simp only [List.append_assoc] at lines
  simp only [startScript, opening, naming, calling, feed, quote, List.append_assoc]
  exact lines.whole

/-! ## Planned processes -/

theorem mem_quote {c : Char} {value : Line} (member : c ∈ value) : c ∈ quote value := by
  unfold quote Base.Shell.quote
  split_ifs with empty plain
  · rw [empty] at member
    cases member
  · exact member
  · apply List.mem_append_left
    apply List.mem_append_right
    refine List.mem_flatMap.mpr ⟨c, member, ?_⟩
    by_cases quoted : c = '\''
    · rw [if_pos quoted, quoted]
      decide
    · rw [if_neg quoted]
      exact List.mem_singleton_self c

theorem mem_intercalate {words : List Line} {word separator : Line} {c : Char}
    (member : word ∈ words) (inside : c ∈ word) : c ∈ separator.intercalate words := by
  induction words with
  | nil => cases member
  | cons head rest ih =>
    cases rest with
    | nil =>
      rw [List.mem_singleton.mp member] at inside
      rwa [List.intercalate_singleton]
    | cons next later =>
      rw [List.intercalate_cons_cons]
      rcases List.mem_cons.mp member with same | member
      · exact List.mem_append_left _ (List.mem_append_left _ (same ▸ inside))
      · exact List.mem_append_right _ (ih member)

/-- A script that can be an argument of a process has only words that can be. -/
theorem processScript_clear {setup : List Line} {command : List Line}
    (clear : '\x00' ∉ processScript setup env command) :
    (∀ path ∈ setup, '\x00' ∉ path) ∧ ∀ word ∈ envWords env command, '\x00' ∉ word := by
  simp only [processScript, List.mem_append, not_or] at clear
  obtain ⟨⟨-, files⟩, ⟨⟨-, assigned⟩, -⟩, run⟩ := clear
  refine ⟨fun path member inside => files ?_, fun word member inside => ?_⟩
  · refine List.mem_flatMap.mpr ⟨path, member, ?_⟩
    exact List.mem_append_left _ (List.mem_append_right _ (mem_quote inside))
  · rcases List.mem_append.mp member with variable_ | argument
    · obtain ⟨entry, known, rfl⟩ := List.mem_map.mp variable_
      exact assigned (mem_intercalate (List.mem_map.mpr ⟨entry, known, rfl⟩) (mem_quote inside))
    · exact run (mem_intercalate (List.mem_map_of_mem argument) (mem_quote inside))

/-- The variables of one side: those of the manifest, and the session's own. -/
theorem mem_environment {config : Participant} {side : Side} {entry : Line × Line}
    (member : entry ∈ config.environment side) :
    (∃ written ∈ config.env, entry = (written.1.val, written.2.val)) ∨
      entry = (text "ROS_DOMAIN_ID", printed config.domainId) ∨
      entry = (text "ROS_LOCALHOST_ONLY", text "1") ∨
      entry = (text "ROS_LOG_DIR", text "/tmp/chimaera-guest-logs") := by
  have shared : entry ∈ config.environment .host ∨
      entry = (text "ROS_LOG_DIR", text "/tmp/chimaera-guest-logs") := by
    cases side with
    | host => exact .inl member
    | guest =>
      simp only [Participant.environment, setDefault] at member
      split_ifs at member with present
      · exact .inl member
      · exact (List.mem_append.mp member).imp_right List.mem_singleton.mp
  rcases shared with member | logs
  · rcases mem_of_mem_assign member with member | local_
    · rcases mem_of_mem_assign member with member | domain
      · obtain ⟨written, known, same⟩ := List.mem_map.mp member
        exact .inl ⟨written, known, same.symm⟩
      · exact .inr (.inl domain)
    · exact .inr (.inr (.inl local_))
  · exact .inr (.inr (.inr logs))

theorem lookup_environment_domain (config : Participant) (side : Side) :
    (config.environment side).lookup (text "ROS_DOMAIN_ID") = some (printed config.domainId) := by
  have shared : (config.environment .host).lookup (text "ROS_DOMAIN_ID") =
      some (printed config.domainId) := by
    rw [Participant.environment, lookup_assign, if_neg (by decide), lookup_assign, if_pos rfl]
  cases side with
  | host => exact shared
  | guest =>
    simp only [Participant.environment, setDefault] at shared ⊢
    split_ifs with present
    · exact shared
    · rw [List.lookup_append, shared, Option.some_or]

section

variable {platform : Platform} {manifest : Manifest}
  (accepted : Accepted platform manifest) (side : Side)

include accepted

theorem config_permitted :
    ∀ entry ∈ (manifest.config side).env, Permitted platform.isIdentifier entry.1 := by
  cases side with
  | host => exact accepted.hostEnv
  | guest => exact accepted.guestEnv

/-- No name of a variable has a meaning of its own for `env`. -/
theorem environment_named
    (identifiers : ∀ key, platform.isIdentifier key = true → '=' ∉ key ∧ key.head? ≠ some '-')
    (entry : Line × Line) (member : entry ∈ (manifest.config side).environment side) :
    '=' ∉ entry.1 ∧ entry.1.head? ≠ some '-' := by
  have domain : '=' ∉ text "ROS_DOMAIN_ID" ∧ (text "ROS_DOMAIN_ID").head? ≠ some '-' := by decide
  have localhost : '=' ∉ text "ROS_LOCALHOST_ONLY" ∧
    (text "ROS_LOCALHOST_ONLY").head? ≠ some '-' := by decide
  have logs : '=' ∉ text "ROS_LOG_DIR" ∧ (text "ROS_LOG_DIR").head? ≠ some '-' := by decide
  rcases mem_environment member with ⟨written, known, rfl⟩ | rfl | rfl | rfl
  · exact identifiers _ (config_permitted accepted side written known).1
  · exact domain
  · exact localhost
  · exact logs

theorem environment_domain (value : Line) :
    (text "ROS_DOMAIN_ID", value) ∈ (manifest.config side).environment side ↔
      value = printed (manifest.config side).domainId := by
  constructor
  · intro member
    rcases mem_environment member with ⟨written, known, same⟩ | same | same | same
    · have own := (config_permitted accepted side written known).2.1
      exact absurd (Prod.mk.inj same).1.symm own
    · exact (Prod.mk.inj same).2
    · exact absurd (Prod.mk.inj same).1 (by decide)
    · exact absurd (Prod.mk.inj same).1 (by decide)
  · rintro rfl
    exact mem_of_lookup (lookup_environment_domain _ side)

end

theorem plan_ok {repr : Rat → Line} {cwd package : Path} {manifest : Manifest} {side : Side}
    {simulate : Bool} {spec : Plan}
    (planned : plan repr cwd manifest side package simulate = .ok spec) :
    spec.env = (manifest.config side).environment side ∧
      ∀ process ∈ spec.processes, process.command ≠ [] := by
  have configured : ∀ process ∈ (⟨side.name ++ text "_bridge", manifest.bridgeStart side package ++
      parameterArguments repr (manifest.parameters side)⟩ : Command) ::
      (manifest.config side).processes.val.map Process.planned, process.command ≠ [] := by
    intro process member
    rcases List.mem_cons.mp member with rfl | member
    · exact List.cons_ne_nil _ _
    · obtain ⟨own, -, rfl⟩ := List.mem_map.mp member
      exact fun empty => own.nonempty (List.map_eq_nil_iff.mp empty)
  unfold plan at planned
  split_ifs at planned with simulated
  · cases known : manifest.simulator with
    | none =>
      rw [known] at planned
      cases planned
    | some simulator =>
      rw [known] at planned
      cases planned
      refine ⟨rfl, fun process member => ?_⟩
      rcases List.mem_append.mp member with member | added
      · exact configured process member
      · rw [List.mem_singleton.mp added]
        exact List.cons_ne_nil _ _
  · cases planned
    exact ⟨rfl, configured⟩

/-- Whatever a session's strings hold, the shell runs `env` with the planned words, and `env` runs
the planned command in the planned environment; only a program with an equals sign in its name is
taken for another variable. -/
theorem planned_process_runs {platform : Platform} {path cwd package : Path} {manifest : Manifest}
    {repr : Rat → Line} {side : Side} {simulate : Bool} {spec : Plan} {process : Command}
    (identifiers : ∀ key, platform.isIdentifier key = true → '=' ∉ key ∧ key.head? ≠ some '-')
    (loaded : load platform path = .ok manifest)
    (planned : plan repr cwd manifest side package simulate = .ok spec)
    (member : process ∈ spec.processes) (clear : '\x00' ∉ spec.script process) :
    ∃ words, script shellSafe (spec.script process) =
        some ((openingLines spec.setup ++ [text "exec" :: text "env" :: words]).map spoken) ∧
      (envUtility words = some (spec.env, process.command) ↔
        ∀ program ∈ process.command.head?, '=' ∉ program) ∧
      ∀ value, (text "ROS_DOMAIN_ID", value) ∈ spec.env ↔
        value = printed (manifest.config side).domainId := by
  have accepted := load_accepted loaded
  obtain ⟨own, filled⟩ := plan_ok planned
  obtain ⟨files, words⟩ := processScript_clear clear
  obtain ⟨first, rest, command⟩ := List.exists_cons_of_ne_nil (filled process member)
  have entry : (text "ROS_DOMAIN_ID", _) ∈ spec.env :=
    own ▸ (environment_domain accepted side _).mpr rfl
  have named : ∀ entry ∈ spec.env, '=' ∉ entry.1 ∧ entry.1.head? ≠ some '-' :=
    own ▸ environment_named accepted side identifiers
  refine ⟨envWords spec.env process.command, processScript_reads files words, ?_, ?_⟩
  · rw [command, envUtility_runs (List.ne_nil_of_mem entry) named]
    simp only [List.head?_cons, Option.mem_some_iff, forall_eq']
  · exact own ▸ environment_domain accepted side

def asciiIdentifier (key : Line) : Bool :=
  key.all fun c => c.isAlphanum || c = '_'

theorem asciiIdentifier_plain (key : Line) (identifier : asciiIdentifier key = true) :
    '=' ∉ key ∧ key.head? ≠ some '-' := by
  have all := List.all_eq_true.mp identifier
  refine ⟨fun member => ?_, fun dashed => ?_⟩
  · exact absurd (all _ member) (by decide)
  · exact absurd (all _ (List.mem_of_head? dashed)) (by decide)

def sampleGreeting : Platform where
  resolve path := .ok path
  read path :=
    if path = Path.parse (text "/session.json") then
      .ok (.object [
        (text "version", .int 1), (text "routes", .string (text "routes.json")),
        (text "host", .object [(text "domain_id", .int 7),
          (text "env", .object [(text "GREETING", .string (text "$HOME; it's"))]),
          (text "processes", .array [.object [(text "name", .string (text "greeter")),
            (text "command", .array [.string (text "echo"), .string (text "a b")])]])]),
        (text "guest", .object [(text "domain_id", .int 1), (text "processes", .array [])])])
    else .ok (.object [(text "version", .int 1), (text "topics", .array [.null])])
  isIdentifier := asciiIdentifier

theorem planned_process_runs_greeting :
    ∃ manifest spec words, load sampleGreeting (Path.parse (text "/session.json")) = .ok manifest ∧
      plan (fun _ => []) ⟨.slash, []⟩ manifest .host ⟨.slash, [text "opt"]⟩ false = .ok spec ∧
      script shellSafe (spec.script ⟨text "greeter", [text "echo", text "a b"]⟩) =
        some ((openingLines spec.setup ++ [text "exec" :: text "env" :: words]).map spoken) ∧
      envUtility words = some (spec.env, [text "echo", text "a b"]) := by
  cases loaded : load sampleGreeting (Path.parse (text "/session.json")) with
  | error message => cases loaded
  | ok manifest =>
    cases planned : plan (fun _ => []) ⟨.slash, []⟩ manifest .host ⟨.slash, [text "opt"]⟩ false with
    | error message =>
      cases loaded
      cases planned
    | ok spec =>
      have member : (⟨text "greeter", [text "echo", text "a b"]⟩ : Command) ∈ spec.processes := by
        cases loaded
        cases planned
        decide
      have clear : '\x00' ∉ spec.script ⟨text "greeter", [text "echo", text "a b"]⟩ := by
        cases loaded
        cases planned
        decide
      obtain ⟨words, reads, runs, -⟩ :=
        planned_process_runs asciiIdentifier_plain loaded planned member clear
      refine ⟨manifest, spec, words, rfl, planned, reads, runs.mpr ?_⟩
      intro program named
      cases named
      decide

end Chimaera.Session
