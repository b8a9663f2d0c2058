import Chimaera.Containers.Runner

/-! What a step of the runner can do, said once: every invariant is proved from the cases
below and not from the step function. -/

namespace Chimaera.Containers.World
open Base.Text

def leaves (runner : Runner) : Event → Bool
  | .inspect _ | .kill _ => true
  | .raise _ _ => !runner.location.guarded
  | _ => false

inductive Move (world : World) (runner : Runner) : Event → World → Prop
  | refused {event : Event} (what : Line) : Move world runner event (world.refuse what)
  | exited {event : Event} (container : Container) : Move world runner event (world.gone container)
  | left {event after} (leaving : leaves runner event = true) (ended : after.runner = none)
      (saved : after.saved = world.saved) (live : after.live = world.live)
      (exits : after.exits = world.exits) (removed : after.removed = world.removed)
      (begun : after.begun = world.begun)
      (raised : ∀ code, after.outcomes ≠ world.outcomes ++ [.returned code]) :
      Move world runner event after
  | skipped {event} (name : Name) (rest : List Name)
      (there : runner.location = .inspecting (name :: rest))
      (absent : ∀ container, (runner.state.jobs name).suspect = some container →
        world.isLive container = false) :
      Move world runner event (world.put (runner.goto (.inspecting rest)))
  | checked {event} (there : runner.location = .inspecting []) :
      Move world runner event (world.put (runner.goto .opening))
  | stopped {event} (there : runner.location = .head)
      (ending : runner.active = [] ∨ runner.interrupted.isSome = true) :
      Move world runner event (world.put (runner.goto .ended))
  | polls {event} (there : runner.location = .head) :
      Move world runner event (world.put (runner.goto (.polling runner.active)))
  | runs {event} (entry : Name × Container) (rest : List (Name × Container))
      (there : runner.location = .polling (entry :: rest)) :
      Move world runner event (world.put (runner.goto (.polling rest)))
  | goes {event} (location : Location) (free : runner.location.guarded = true)
      (next : location = .starting ∨ location = .progress ∨ location = .head) :
      Move world runner event (world.put (runner.goto location))
  | polled {event} (name : Name) (container : Container) (code : Int)
      (rest : List (Name × Container))
      (there : runner.location = .polling ((name, container) :: rest)) :
      Move world runner event ({ world with exits := world.exits ++ [(container, code)] }.put
        (runner.goto (.removing name container code rest)))
  | removed {event} (name : Name) (container : Container) (code : Int)
      (rest : List (Name × Container))
      (there : runner.location = .removing name container code rest) :
      Move world runner event
        ({ world.gone container with removed := world.removed ++ [container] }.put
          (runner.goto (.removed name container code rest)))
  | caught {event} (what : Line) (torn : Bool) (free : runner.location.guarded = true) :
      Move world runner event ((world.tear runner torn).put (runner.caught what))
  | finished {event} (name : Name) (container : Container) (code : Int)
      (rest : List (Name × Container))
      (there : runner.location = .removed name container code rest) :
      Move world runner event (world.put (runner.finish name code rest))
  | dequeued {event} (name : Name) (rest : List Name) (there : runner.location = .starting)
      (queue : runner.pending = name :: rest) (room : runner.active.length < runner.workers) :
      Move world runner event (world.put { runner with
        pending := rest, dequeued := runner.dequeued ++ [name], location := .preparing name })
  | prepared {event} (name : Name) (container : Container)
      (there : runner.location = .preparing name) :
      Move world runner event ({ world with drawn := world.drawn ++ [container] }.put
        (runner.prepare name container))
  | spawned {event} (name : Name) (container : Container) (created : Bool)
      (there : runner.location = .spawning name container) :
      Move world runner event ({ world with
        live := if created then world.live ++ [(container, name)] else world.live }.put
          (runner.spawn name container))
  | spawnFailed {event} (name : Name) (container : Container) (what : Line)
      (there : runner.location = .spawning name container) :
      Move world runner event (world.put ((runner.spawnError name what).caught what))
  | concluded {event} (there : runner.location = .ended) :
      Move world runner event (world.put runner.conclude)
  | cleaned {event} (name : Name) (container : Container) (code : Int)
      (rest : List (Name × Container))
      (there : runner.location = .cleaning ((name, container) :: rest)) :
      Move world runner event
        ({ world.gone container with removed := world.removed ++ [container] }.put
          (runner.cleaned name code rest))
  | cleanFailed {event} (entry : Name × Container) (what : Line)
      (rest : List (Name × Container)) (there : runner.location = .cleaning (entry :: rest)) :
      Move world runner event (world.put { runner with
        cleanupErrors := runner.cleanupErrors ++ [what], location := .cleaning rest })
  | settled {event} (there : runner.location = .cleaning []) :
      Move world runner event (world.put runner.settle)
  | saved {event} (location : Location)
      (next : (runner.location = .opening ∧ location = .head) ∨
        (∃ rest, runner.location = .recorded rest ∧ location = .polling rest) ∨
        (runner.location = .spawned ∧ location = .starting)) :
      Move world runner event ((world.save runner).put (runner.goto location))
  | closed {event} (there : runner.location = .closing) :
      Move world runner event ((world.save runner).leave runner.outcome)
  | signalled {event} (signal : Signal) (handled : runner.location.handled = true) :
      Move world runner event (world.put { runner with interrupted := some signal })

variable {event : Event} {world after : World} {runner : Runner}

theorem advance_move {world : World} {runner next : Runner}
    (taken : runner.advance = some next) : Move world runner event (world.put next) := by
  unfold Runner.advance at taken
  split at taken
  case h_1 there => cases taken; exact .checked there
  case h_2 name rest there =>
    split_ifs at taken with absent
    cases taken
    exact .skipped name rest there (by simp [absent])
  case h_3 there =>
    split_ifs at taken with idle stopped <;> cases taken
    · exact .stopped there (.inl idle.2)
    · exact .stopped there (.inr stopped)
    · exact .polls there
  case h_4 there => cases taken; exact .goes _ (by rw [there]; rfl) (.inl rfl)
  case h_5 name container code rest there => cases taken; exact .finished name container code rest there
  case h_6 there =>
    cases taken
    have free : runner.location.guarded = true := by rw [there]; rfl
    unfold Runner.dequeue
    split
    · exact .goes _ free (.inr (.inl rfl))
    · rename_i name rest queue
      split_ifs with room
      · exact .dequeued name rest there queue room.1
      · exact .goes _ free (.inr (.inl rfl))
  case h_7 there => cases taken; exact .goes _ (by rw [there]; rfl) (.inr (.inr rfl))
  case h_8 there => cases taken; exact .concluded there
  case h_9 there => cases taken; exact .settled there
  case h_10 => cases taken

theorem inspect_move {answer : Inspection} (taken : world.inspect runner answer = some after) :
    Move world runner (.inspect answer) after := by
  unfold inspect at taken
  split at taken
  case h_2 => cases taken
  case h_1 name rest there =>
    have raised : ∀ what code, world.outcomes ++ [Outcome.raised what] ≠
        world.outcomes ++ [.returned code] := by simp
    split at taken
    case h_1 container suspect =>
      split_ifs at taken
      cases taken
      exact .left rfl rfl rfl rfl rfl rfl rfl (raised _)
    case h_2 container suspect =>
      split_ifs at taken with absent
      cases taken
      apply Move.skipped name rest there
      intro other same
      rw [suspect] at same
      cases same
      exact Bool.eq_false_iff.mpr absent
    case h_3 =>
      cases taken
      exact .left rfl rfl rfl rfl rfl rfl rfl (raised _)
    case h_4 => cases taken

theorem write_move (taken : world.write runner = some after) : Move world runner event after := by
  unfold write at taken
  split at taken
  case h_1 there => cases taken; exact .saved _ (.inl ⟨there, rfl⟩)
  case h_2 rest there => cases taken; exact .saved _ (.inr (.inl ⟨rest, there, rfl⟩))
  case h_3 there => cases taken; exact .saved _ (.inr (.inr ⟨there, rfl⟩))
  case h_4 there => cases taken; exact .closed there
  case h_5 => cases taken

theorem raise_move (world : World) (runner : Runner) (what : Line) (torn : Bool) :
    Move world runner (.raise what torn) (world.raise runner what torn) := by
  unfold raise
  split_ifs with free
  · exact .caught what torn free
  · refine .left (by simp [leaves, free]) rfl rfl rfl rfl rfl rfl ?_
    simp [leave, tear]

theorem invoke_refused {world : World} (busy : world.runner.isSome = true) (identity : Identity)
    (workers : Int) (resume : Bool) :
    ∃ what, world.invoke identity workers resume = world.refuse what := by
  unfold invoke
  split_ifs
  · exact ⟨_, rfl⟩
  · exact ⟨_, rfl⟩

theorem poll_move {code : Option Int}
    (taken : world.poll runner code = some after) : Move world runner event after := by
  unfold poll at taken
  split at taken
  case h_1 there => cases taken; exact .runs _ _ there
  case h_2 there => cases taken; exact .polled _ _ _ _ there
  case h_3 => cases taken

theorem remove_move {stderr : Option Line}
    (taken : world.remove runner stderr = some after) : Move world runner event after := by
  unfold remove at taken
  split at taken
  case h_1 there => cases taken; exact .removed _ _ _ _ there
  case h_2 there => cases taken; exact .caught _ false (by rw [there]; rfl)
  case h_3 => cases taken

theorem prepare_move {container : Container}
    (taken : world.prepare runner container = some after) : Move world runner event after := by
  unfold prepare at taken
  split at taken
  case h_1 name there =>
    split_ifs at taken
    cases taken
    exact .prepared name container there
  case h_2 => cases taken

theorem spawn_move {created : Bool}
    (taken : world.spawn runner created = some after) : Move world runner event after := by
  unfold spawn at taken
  split at taken
  case h_1 there => cases taken; exact .spawned _ _ _ there
  case h_2 => cases taken

theorem spawnError_move {what : Line}
    (taken : world.spawnError runner what = some after) : Move world runner event after := by
  unfold spawnError at taken
  split at taken
  case h_1 there => cases taken; exact .spawnFailed _ _ _ there
  case h_2 => cases taken

theorem clean_move {code : Int}
    (taken : world.clean runner code = some after) : Move world runner event after := by
  unfold clean at taken
  split at taken
  case h_1 there => cases taken; exact .cleaned _ _ _ _ there
  case h_2 => cases taken

theorem cleanError_move {what : Line}
    (taken : world.cleanError runner what = some after) : Move world runner event after := by
  unfold cleanError at taken
  split at taken
  case h_1 there => cases taken; exact .cleanFailed _ _ _ there
  case h_2 => cases taken

theorem act_move (busy : world.runner = some runner) (taken : world.act runner event = some after) :
    Move world runner event after := by
  cases event with
  | invoke identity workers resume =>
    obtain ⟨what, refused⟩ := invoke_refused (by rw [busy]; rfl) identity workers resume
    rw [act, refused] at taken
    cases taken
    exact .refused what
  | inspect answer => exact inspect_move taken
  | advance =>
    obtain ⟨next, advanced, rfl⟩ := Option.map_eq_some_iff.mp taken
    exact advance_move advanced
  | write => exact write_move taken
  | poll code => exact poll_move taken
  | remove stderr => exact remove_move taken
  | prepare container => exact prepare_move taken
  | spawn created => exact spawn_move taken
  | spawnError what => exact spawnError_move taken
  | clean code => exact clean_move taken
  | cleanError what => exact cleanError_move taken
  | raise what torn =>
    cases taken
    exact raise_move world runner what torn
  | signal signal =>
    rw [act, World.signal] at taken
    split_ifs at taken with handled
    cases taken
    exact .signalled signal handled
  | kill torn =>
    cases taken
    refine .left rfl rfl rfl rfl rfl rfl rfl ?_
    simp [kill, tear]
  | exit container =>
    cases taken
    exact .exited container

inductive Idle (world : World) : Event → World → Prop
  | refused {event : Event} (what : Line) : Idle world event (world.refuse what)
  | exited {event : Event} (container : Container) : Idle world event (world.gone container)
  | fresh (identity : Identity) (workers : Int) (empty : world.saved = none) :
      Idle world (.invoke identity workers false)
        (world.enter (.begin identity workers.toNat (fun _ => { status := .queued }) .opening))
  | resumed (state : RunState) (workers : Int) (saved : world.saved = some state) :
      Idle world (.invoke state.identity workers true)
        (world.enter (.begin state.identity workers.toNat state.jobs
          (.inspecting state.identity.jobs)))

theorem invoke_idle (world : World) (identity : Identity) (workers : Int) (resume : Bool) :
    Idle world (.invoke identity workers resume) (world.invoke identity workers resume) := by
  unfold invoke
  split_ifs with few busy resuming occupied
  · exact .refused _
  · exact .refused _
  · subst resuming
    cases saved : world.saved with
    | none => exact .refused _
    | some state =>
      dsimp only
      split_ifs with other
      · exact .refused _
      · rw [← not_not.mp other]
        exact .resumed state workers saved
  · exact .refused _
  · rw [Bool.eq_false_iff.mpr resuming]
    refine .fresh identity workers ?_
    rw [not_or] at occupied
    exact Option.not_isSome_iff_eq_none.mp occupied.1

theorem step_cases (taken : world.step event = some after) :
    (∃ runner, world.runner = some runner ∧ Move world runner event after) ∨
      world.runner = none ∧ Idle world event after := by
  unfold step at taken
  split at taken
  case h_1 event runner busy => exact .inl ⟨runner, busy, act_move busy taken⟩
  case h_2 identity workers resume idle =>
    cases taken
    exact .inr ⟨idle, invoke_idle world identity workers resume⟩
  case h_3 container idle =>
    cases taken
    exact .inr ⟨idle, .exited container⟩
  case h_4 => cases taken

end Chimaera.Containers.World
