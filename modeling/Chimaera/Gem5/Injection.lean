import Chimaera.Base.Base64
import Chimaera.Base.Netstring
import Chimaera.Session.Scripts

/-! `guest_start_script`: files of the host reach the guest inside the script that it runs after
boot, as base64 text behind `printf`. The script is read as the shell reads it, and each of its
lines is executed on the files of the guest. -/

namespace Chimaera.Gem5
open Base.Text Base.Unsigned Base.Checked Base.Shell Base.BigEndian Base.Netstring
open Session (Path quote shellSafe spoken neutral_shellSafe reads_literal)

structure HostFile where
  content : List Byte
  mode : Nat
  deriving DecidableEq, Repr

inductive InjectionFailure where
  | valueError (message : Line)
  | osError (message : Line)
  deriving DecidableEq, Repr

structure Injection where
  destination : Line
  file : HostFile
  deriving DecidableEq, Repr

def HostFile.executable (file : HostFile) : Bool := file.mode &&& 0o111 ≠ 0

def readEntry (source : Path → Except Line HostFile) (entry : Line) :
    Except InjectionFailure Injection :=
  let guestPath := (entry.span (· ≠ '=')).1
  let rest := (entry.span (· ≠ '=')).2
  let target := Path.parse guestPath
  if rest = [] ∨ !target.isAbsolute ∨ target.parts.contains (text "..") ∨
      target = ⟨.slash, []⟩ then
    .error (.valueError (text "guest files require an absolute GUEST_PATH=HOST_PATH"))
  else
    match source (Path.parse rest.tail) with
    | .error message => .error (.osError message)
    | .ok file => .ok ⟨guestPath, file⟩

def Injection.mode (injection : Injection) : Line :=
  if injection.file.executable then text "755" else text "644"

def Injection.script (injection : Injection) : Line :=
  text "printf %s " ++ Base.Base64.encode injection.file.content ++
    text " | base64 -d | chimaera_root tee " ++ quote injection.destination ++
    text " >/dev/null\n" ++
  (text "chimaera_root chmod " ++ injection.mode ++ text " " ++ quote injection.destination ++
    text "\n")

def startHeader : Line :=
  text "#!/bin/bash\nset -eo pipefail\nchimaera_root() \x7b\n    if (( EUID == 0 )); then\n" ++
  text "        \"$@\"\n    else\n        sudo -n \"$@\"\n    fi\n\x7d\n"

def opening (preamble : Line) : Line :=
  startHeader ++ preamble ++
    if preamble ≠ [] ∧ preamble.getLast? ≠ some '\n' then text "\n" else []

def startBody (injections : List Injection) (command : Line) : Line :=
  injections.flatMap Injection.script ++ (text "chimaera_root " ++ quote command ++ text "\n")

def guestStartScript (source : Path → Except Line HostFile) (command : Line) (files : List Line)
    (preamble : Line) : Except InjectionFailure Line := do
  let injections ← files.mapM (readEntry source)
  .ok (opening preamble ++ startBody injections command)

/-! ## The guest -/

/-- Files by the components of their paths, and the programs that were started as root. -/
structure Guest where
  files : List Line → Option HostFile
  started : List Line

namespace Guest

def place (path : Line) : List Line := (Path.parse path).parts

def put (guest : Guest) (path : Line) (file : HostFile) : Guest :=
  { guest with files := Function.update guest.files (place path) (some file) }

def start (guest : Guest) (program : Line) : Guest :=
  { guest with started := guest.started ++ [program] }

/-- `tee`: an old file keeps its mode. -/
def tee (writable : Line → Bool) (guest : Guest) (path : Line) (input : List Byte) : Option Guest :=
  if writable path then
    some (guest.put path ⟨input, ((guest.files (place path)).map HostFile.mode).getD 0o644⟩)
  else none

def octal (digits : Line) : Nat := digits.foldl (fun value c => value * 8 + (c.toNat - 48)) 0

def chmod (guest : Guest) (digits path : Line) : Option Guest :=
  (guest.files (place path)).map fun file => guest.put path { file with mode := octal digits }

def asRoot (writable : Line → Bool) (guest : Guest) (input : List Byte) :
    List Token → Option (List Byte × Guest)
  | [.word program] => some ([], guest.start program)
  | [.word name, .word path, .redirect, .word target] =>
      if name = text "tee" ∧ target = text "/dev/null" then
        (guest.tee writable path input).map fun after => ([], after)
      else none
  | [.word name, .word digits, .word path] =>
      if name = text "chmod" then (guest.chmod digits path).map fun after => ([], after) else none
  | _ => none

def command (writable : Line → Bool) (guest : Guest) (input : List Byte) :
    List Token → Option (List Byte × Guest)
  | .word name :: rest =>
      if name = text "printf" then
        match rest with
        | [.word format] => if format = text "%s" then some ([], guest) else none
        | [.word format, .word value] =>
            if format = text "%s" then some (ascii value, guest) else none
        | _ => none
      else if name = text "base64" then
        if rest = [.word (text "-d")] then
          (Base.Base64.decode (input.map fun byte => Char.ofNat byte.toNat)).map fun bytes =>
            (bytes, guest)
        else none
      else if name = text "chimaera_root" then guest.asRoot writable input rest
      else none
  | _ => none

/-- One line; a pipeline fails with any of its commands. -/
def line (writable : Line → Bool) (guest : Guest) (tokens : List Token) : Option Guest :=
  ((tokens.splitOn .pipe).foldlM (fun (state : List Byte × Guest) words =>
    state.2.command writable state.1 words) ([], guest)).map Prod.snd

/-- The lines of a script up to the first that fails, as `set -eo pipefail` in the header has it,
and whether none did. -/
def execute (writable : Line → Bool) (guest : Guest) : List (List Token) → Guest × Bool
  | [] => (guest, true)
  | tokens :: rest =>
      match guest.line writable tokens with
      | some after => after.execute writable rest
      | none => (guest, false)

end Guest

/-! ## What the script does -/

def Injection.placed (injection : Injection) : HostFile :=
  ⟨injection.file.content, if injection.file.executable then 0o755 else 0o644⟩

def Guest.inject (guest : Guest) (injections : List Injection) : Guest :=
  injections.foldl (fun guest injection => guest.put injection.destination injection.placed) guest

def Injection.printed (injection : Injection) : List Line :=
  if injection.file.content = [] then [text "printf", text "%s"]
  else [text "printf", text "%s", Base.Base64.encode injection.file.content]

def Injection.writeLine (injection : Injection) : List Token :=
  spoken injection.printed ++ .pipe :: (spoken [text "base64", text "-d"] ++ .pipe ::
    (spoken [text "chimaera_root", text "tee", injection.destination] ++ .redirect ::
      spoken [text "/dev/null"]))

def Injection.modeLine (injection : Injection) : List Token :=
  spoken [text "chimaera_root", text "chmod", injection.mode, injection.destination]

theorem ascii_encode (bytes : List Byte) :
    (ascii (Base.Base64.encode bytes)).map (fun byte => Char.ofNat byte.toNat) =
      Base.Base64.encode bytes := by
  have kept : ('=' :: Base.Base64.alphabet).all (fun c =>
      Char.ofNat (UInt8.ofNat c.toNat).toNat = c) = true := by decide +kernel
  rw [ascii, List.map_map]
  conv_rhs => rw [← List.map_id (Base.Base64.encode bytes)]
  apply List.map_congr_left
  intro c member
  have known : c ∈ '=' :: Base.Base64.alphabet := by
    rcases Base.Base64.mem_encode member with digit | pad
    · exact List.mem_cons_of_mem _ digit
    · exact pad ▸ List.mem_cons_self
  exact of_decide_eq_true (List.all_eq_true.mp kept c known)

theorem encode_plain (bytes : List Byte) : (Base.Base64.encode bytes).all shellSafe = true := by
  have plain : ('=' :: Base.Base64.alphabet).all shellSafe = true := by decide +kernel
  rw [List.all_eq_true]
  intro c member
  apply List.all_eq_true.mp plain
  rcases Base.Base64.mem_encode member with digit | pad
  · exact List.mem_cons_of_mem _ digit
  · exact pad ▸ List.mem_cons_self

namespace Guest

variable (writable : Line → Bool) (guest : Guest)

theorem line_write (injection : Injection) :
    guest.line writable injection.writeLine =
      guest.tee writable injection.destination injection.file.content := by
  have pipeline : injection.writeLine.splitOn Token.pipe =
      [spoken injection.printed, spoken [text "base64", text "-d"],
        spoken [text "chimaera_root", text "tee", injection.destination] ++ .redirect ::
          spoken [text "/dev/null"]] := by
    have words : Token.pipe ∉ spoken injection.printed := by simp [spoken]
    rw [Injection.writeLine, List.splitOn_append_cons_self_of_not_mem words]
    rfl
  have printed : guest.command writable [] (spoken injection.printed) =
      some (ascii (Base.Base64.encode injection.file.content), guest) := by
    unfold Injection.printed
    split_ifs with empty
    · rw [empty]
      rfl
    · rfl
  have decoded : guest.command writable (ascii (Base.Base64.encode injection.file.content))
      (spoken [text "base64", text "-d"]) = some (injection.file.content, guest) := by
    have utility : guest.command writable (ascii (Base.Base64.encode injection.file.content))
        (spoken [text "base64", text "-d"]) = (Base.Base64.decode
          ((ascii (Base.Base64.encode injection.file.content)).map fun byte =>
            Char.ofNat byte.toNat)).map fun bytes => (bytes, guest) := rfl
    rw [utility, ascii_encode, Base.Base64.decode_encode, Option.map_some]
  have written : guest.command writable injection.file.content
      (spoken [text "chimaera_root", text "tee", injection.destination] ++ .redirect ::
        spoken [text "/dev/null"]) =
      (guest.tee writable injection.destination injection.file.content).map fun after =>
        ([], after) := rfl
  rw [line, pipeline]
  simp only [List.foldlM_cons, List.foldlM_nil, printed, decoded, written, Option.bind_eq_bind,
    Option.bind_some]
  cases guest.tee writable injection.destination injection.file.content <;> rfl

theorem line_mode (injection : Injection) :
    guest.line writable injection.modeLine =
      guest.chmod injection.mode injection.destination := by
  have changed : guest.line writable injection.modeLine =
      (((guest.chmod injection.mode injection.destination).map fun after =>
        (([] : List Byte), after)).bind fun state => some state).map Prod.snd := rfl
  rw [changed]
  cases guest.chmod injection.mode injection.destination <;> rfl

theorem chmod_tee {after : Guest} {injection : Injection}
    (written : guest.tee writable injection.destination injection.file.content = some after) :
    after.chmod injection.mode injection.destination =
      some (guest.put injection.destination injection.placed) := by
  have mode : octal injection.mode = injection.placed.mode := by
    unfold Injection.mode Injection.placed
    cases injection.file.executable <;> rfl
  unfold tee at written
  split_ifs at written with allowed
  cases written
  simp only [chmod, put, Function.update_self, Function.update_idem, Option.map_some, mode]
  rfl

theorem execute_injection (injection : Injection) (rest : List (List Token)) :
    guest.execute writable (injection.writeLine :: injection.modeLine :: rest) =
      if writable injection.destination then
        (guest.put injection.destination injection.placed).execute writable rest
      else (guest, false) := by
  rw [execute, line_write]
  cases written : guest.tee writable injection.destination injection.file.content with
  | none =>
    have refused : ¬(writable injection.destination = true) := by
      intro allowed
      rw [tee, if_pos allowed] at written
      cases written
    rw [if_neg refused]
  | some after =>
    have allowed : writable injection.destination = true := by
      by_contra refused
      rw [tee, if_neg refused] at written
      cases written
    rw [if_pos allowed]
    simp only [execute, line_mode, chmod_tee writable guest written]

theorem inject_cons (injection : Injection) (rest : List Injection) :
    guest.inject (injection :: rest) =
      (guest.put injection.destination injection.placed).inject rest := rfl

theorem execute_body (injections : List Injection) (program : Line) :
    guest.execute writable (injections.flatMap (fun injection =>
        [injection.writeLine, injection.modeLine]) ++
        [spoken [text "chimaera_root", program]]) =
      if injections.all (fun injection => writable injection.destination) then
        ((guest.inject injections).start program, true)
      else (guest.inject (injections.takeWhile fun injection => writable injection.destination),
        false) := by
  induction injections generalizing guest with
  | nil => rfl
  | cons injection rest ih =>
    rw [List.flatMap_cons, List.append_assoc, List.cons_append, List.cons_append, List.nil_append,
      execute_injection, List.all_cons, List.takeWhile_cons]
    by_cases allowed : writable injection.destination = true
    · rw [if_pos allowed, ih, allowed, Bool.true_and, inject_cons, if_pos rfl, inject_cons]
    · have refused : writable injection.destination = false := Bool.eq_false_iff.mpr allowed
      rw [if_neg allowed, refused, Bool.false_and, if_neg Bool.false_ne_true]
      rfl

end Guest

/-! ## The text -/

/-- Every line of the script is read as it is meant, whatever is in the file and its name. -/
theorem Injection.spells {injection : Injection} (clear : '\x00' ∉ injection.destination) :
    Spells shellSafe injection.script [injection.writeLine, injection.modeLine] := by
  have format : Reads shellSafe (text "printf %s") (spoken [text "printf", text "%s"]) :=
    reads_literal (by decide) (by decide)
  have printed : Reads shellSafe
      (text "printf %s" ++ text " " ++ Base.Base64.encode injection.file.content)
      (spoken injection.printed) := by
    unfold Injection.printed
    split_ifs with empty
    · rw [empty]
      exact format.spaced reads_nil
    · have digits : Base.Base64.encode injection.file.content ≠ [] := by
        intro none
        have decoded := Base.Base64.decode_encode injection.file.content
        rw [none] at decoded
        exact empty (Option.some.inj decoded).symm
      exact format.spaced (reads_plain neutral_shellSafe digits (encode_plain _))
  have decoding : Reads shellSafe (text "base64 -d") (spoken [text "base64", text "-d"]) :=
    reads_literal (by decide) (by decide)
  have target : Reads shellSafe (quote injection.destination) (spoken [injection.destination]) :=
    reads_quote neutral_shellSafe clear
  have root : Reads shellSafe (text "chimaera_root tee")
      (spoken [text "chimaera_root", text "tee"]) :=
    reads_literal (by decide) (by decide)
  have null : Reads shellSafe (text "/dev/null") (spoken [text "/dev/null"]) :=
    reads_literal (by decide) (by decide)
  have written := reads_nil.blank ((root.spaced target).redirect rfl null)
  have behind : (spoken injection.printed).getLast? = some (.word (injection.printed.getLastD [])) := by
    unfold Injection.printed
    split_ifs <;> rfl
  have stored := printed.pipe behind (reads_nil.blank (decoding.pipe rfl written))
  have changing : Reads shellSafe (text "chimaera_root chmod" ++ text " " ++ injection.mode)
      (spoken [text "chimaera_root", text "chmod", injection.mode]) := by
    unfold Injection.mode
    split_ifs
    · exact reads_literal (by decide) (by decide)
    · exact reads_literal (by decide) (by decide)
  have changed := changing.spaced target
  have lines := (stored.line (by simp [spoken])).append (changed.line (by simp [spoken]))
  have front : text "printf %s " = text "printf %s" ++ text " " := by decide
  have middle : text " | base64 -d | chimaera_root tee " = ' ' :: '|' :: ' ' :: (text "base64 -d" ++
      ' ' :: '|' :: ' ' :: (text "chimaera_root tee" ++ text " ")) := by decide
  have end_ : text " >/dev/null\n" = ' ' :: '>' :: (text "/dev/null" ++ ['\n']) := by decide
  have mode : text "chimaera_root chmod " = text "chimaera_root chmod" ++ text " " := by decide
  have feed : text "\n" = ['\n'] := rfl
  rw [Injection.script, front, middle, end_, mode, feed]
  simp only [List.append_assoc, List.cons_append, List.nil_append] at lines ⊢
  exact lines

structure Injection.Requested (source : Path → Except Line HostFile) (entry : Line)
    (injection : Injection) : Prop where
  written : ∃ host, entry = injection.destination ++ text "=" ++ host ∧
    source (Path.parse host) = .ok injection.file
  named : '=' ∉ injection.destination
  absolute : (Path.parse injection.destination).isAbsolute = true
  inside : text ".." ∉ Guest.place injection.destination

theorem readEntry_ok {source : Path → Except Line HostFile} {entry : Line} {injection : Injection}
    (read : readEntry source entry = .ok injection) : injection.Requested source entry := by
  have whole := List.takeWhile_append_dropWhile (p := fun c => decide (c ≠ '=')) (l := entry)
  have first := List.head?_dropWhile_not (fun c => decide (c ≠ '=')) entry
  unfold readEntry at read
  rw [List.span_eq_takeWhile_dropWhile] at read
  dsimp only at read
  split_ifs at read with refused
  simp only [not_or, Bool.not_eq_true, Bool.not_eq_false', List.contains_eq_mem,
    decide_eq_false_iff_not] at refused
  obtain ⟨marked, absolute, inside, -⟩ := refused
  obtain ⟨c, host, split⟩ := List.exists_cons_of_ne_nil marked
  rw [split] at first whole
  have mark : c = '=' := not_not.mp (of_decide_eq_false first)
  rw [split, List.tail_cons] at read
  split at read
  · cases read
  · next file found =>
    cases read
    refine ⟨⟨host, ?_, found⟩, ?_, absolute, inside⟩
    · rw [mark] at whole
      rw [List.append_assoc]
      exact whole.symm
    · intro member
      have kept := List.all_eq_true.mp List.all_takeWhile _ member
      exact of_decide_eq_true kept rfl

theorem startBody_lines {injections : List Injection} {command : Line}
    (clear : ∀ injection ∈ injections, '\x00' ∉ injection.destination)
    (program : '\x00' ∉ command) :
    script shellSafe (startBody injections command) = some (injections.flatMap (fun injection =>
      [injection.writeLine, injection.modeLine]) ++ [spoken [text "chimaera_root", command]]) := by
  have files := spells_flatMap fun injection member => Injection.spells (clear injection member)
  have root : Reads shellSafe (text "chimaera_root") (spoken [text "chimaera_root"]) :=
    reads_literal (by decide) (by decide)
  have last := (root.spaced (reads_quote neutral_shellSafe program)).line (by simp [spoken])
  exact (files.append last).whole

/-- For every list of files and every guest, in the shell that the header sets up and a preamble
that leaves it so: the script writes each requested file byte for byte with its mode, and starts
the program only behind the last one; it stops at the first file that cannot be written. -/
theorem start_script_injects {source : Path → Except Line HostFile} {command : Line}
    {files : List Line} {preamble script : Line}
    (built : guestStartScript source command files preamble = .ok script)
    (clear : ∀ entry ∈ files, '\x00' ∉ entry) (program : '\x00' ∉ command) :
    ∃ injections lines, List.Forall₂ (Injection.Requested source) files injections ∧
      script = opening preamble ++ startBody injections command ∧
      Base.Shell.script shellSafe (startBody injections command) = some lines ∧
      ∀ (writable : Line → Bool) (guest : Guest), guest.execute writable lines =
        if injections.all (fun injection => writable injection.destination) then
          ((guest.inject injections).start command, true)
        else
          (guest.inject (injections.takeWhile fun injection => writable injection.destination),
            false) := by
  obtain ⟨injections, read, built⟩ := bind_eq_ok.mp built
  cases built
  have requested : List.Forall₂ (Injection.Requested source) files injections :=
    (forall_of_mapM read).imp fun _ _ => readEntry_ok
  have destinations : ∀ injection ∈ injections, '\x00' ∉ injection.destination := by
    intro injection member inside
    obtain ⟨entry, known, asked⟩ := mem_of_mapM read injection member
    obtain ⟨host, whole, -⟩ := (readEntry_ok asked).written
    apply clear entry known
    rw [whole, List.append_assoc]
    exact List.mem_append_left _ inside
  refine ⟨injections, _, requested, rfl, startBody_lines destinations program, ?_⟩
  intro writable guest
  exact guest.execute_body writable injections command

def sampleSource (path : Path) : Except Line HostFile :=
  if path = Path.parse (text "/run/controller.yaml") then .ok ⟨[107, 58, 49, 10], 0o100644⟩
  else .error (text "No such file or directory")

theorem start_script_injects_controller :
    ∃ script injections lines,
      guestStartScript sampleSource (text "/opt/guest start")
        [text "/tmp/o'clock.yaml=/run/controller.yaml"] [] = .ok script ∧
      script = opening [] ++ startBody injections (text "/opt/guest start") ∧
      Base.Shell.script shellSafe (startBody injections (text "/opt/guest start")) = some lines ∧
      ∀ guest : Guest, guest.execute (fun _ => true) lines =
        ((guest.inject injections).start (text "/opt/guest start"), true) := by
  cases built : guestStartScript sampleSource (text "/opt/guest start")
      [text "/tmp/o'clock.yaml=/run/controller.yaml"] [] with
  | error failure => cases built
  | ok script =>
    obtain ⟨injections, lines, -, whole, reads, runs⟩ :=
      start_script_injects built (by decide) (by decide)
    refine ⟨script, injections, lines, rfl, whole, reads, fun guest => ?_⟩
    rw [runs, if_pos (List.all_eq_true.mpr fun _ _ => rfl)]

end Chimaera.Gem5
