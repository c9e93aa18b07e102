import Odorobo.AgentActor
import Odorobo.AgentViews

/-! One agent, its updater task and the scheduler. The task polls the agent and
forwards each answer to the mailbox of the scheduler; the scheduler may lose the
agent, abort the task and start another, while letters of the old task still
wait. Letters of one task arrive in the order it sent them; those of different
tasks in any order. -/

namespace Odorobo

open SchedulerActor AgentActor

/-- An answer of the agent, as the updater forwards it. -/
abbrev Answer := { update : AgentStatusUpdate // update.Disjoint }

/-- The local variables of a running updater task, and the answer to its request
while that is on its way. -/
structure Updater where
  task : JoinHandle
  statusRevision : U64
  initialStatus : Bool
  fails : Fin (2 ^ 8)
  awaiting : Option Answer

inductive Notice where
  | updated (answer : Answer)
  | stopped

structure Letter where
  sender : JoinHandle
  notice : Notice

theorem agentRef_id (agentId : ActorId) : (⟨agentId⟩ : RemoteActorRef .agent).id = agentId := rfl

def Letter.event (agentId : ActorId) (now : Instant) (letter : Letter) : Event :=
  match letter.notice with
  | .updated answer =>
    .agentUpdated ⟨agentId, ⟨agentId⟩, answer.1, agentRef_id agentId, answer.2⟩ now
  | .stopped => .agentUpdaterStopped agentId

/-- `changes` is the log of all membership changes of the agent so far and
`latest` the youngest task of which a letter has been handled; no part of the
system reads them. -/
structure Cluster where
  agent : AgentActor
  changes : List (Ulid × Bool)
  updater : Option Updater
  mailbox : List Letter
  scheduler : SchedulerActor
  tasks : Nat
  latest : Nat

namespace Updater

def start (task : JoinHandle) : Updater where
  task := task
  statusRevision := 0
  initialStatus := true
  fails := 0
  awaiting := none

def request (updater : Updater) : GetAgentStatus := ⟨updater.statusRevision, updater.initialStatus⟩

/-- The task after it has forwarded an answer. -/
def forwarded (updater : Updater) (answer : Answer) : Updater :=
  { updater with
    statusRevision := answer.1.revision, initialStatus := false, fails := 0, awaiting := none }

end Updater

namespace Cluster

def onStart (config : Config) (host : Host) : Cluster where
  agent := AgentActor.onStart config host
  changes := []
  updater := none
  mailbox := []
  scheduler := SchedulerActor.onStart
  tasks := 0
  latest := 0

/-- The agent answers the request of the running task (`answer`), the task sends
the answer on (`forward`), or the request fails, answered or not (`lose`). -/
inductive Move where
  | perform (op : MembershipOp)
  | answer
  | forward
  | lose
  | deliver (position : Nat) (now : Instant)
  | discover (linked : Bool)
  | handle (event : Event)
  | rehash

def answer (agent : AgentActor) (updater : Updater) : Answer :=
  ⟨agent.getAgentStatus updater.request, agent.getAgentStatus_disjoint _⟩

/-- What reaches the scheduler about the agent only through its discovery and
its updater. -/
def isPolling (agentId : ActorId) : Event → Bool
  | .agentActorDiscovered actorRef _ => actorRef.id = agentId
  | .agentUpdated msg _ => msg.actorId = agentId
  | .agentUpdaterStopped id => id = agentId
  | _ => false

/-- A failed poll; the sixth in a row stops the task. -/
def pollFailed (x : Cluster) (updater : Updater) : Cluster :=
  let fails := Saturating.add updater.fails 1
  if 5 < fails then
    { x with updater := none, mailbox := x.mailbox ++ [⟨updater.task, .stopped⟩] }
  else { x with updater := some { updater with fails := fails, awaiting := none } }

/-- The mailbox without the letter at the position, which is being handled. -/
def taken (x : Cluster) (position : Nat) (letter : Letter) : Cluster :=
  { x with
    mailbox := x.mailbox.eraseIdx position
    latest := max x.latest letter.sender.task }

/-- The scheduler handles an event. A polling task is aborted when its handle is
taken off the table. -/
def handled (agentId : ActorId) (x : Cluster) (event : Event) : Cluster :=
  let scheduler := x.scheduler.handle event
  { x with
    scheduler := scheduler
    updater := x.updater.filter fun updater =>
      scheduler.agentKeepaliveTasks.get agentId = some updater.task }

/-- Discovery of the agent spawns a task unless one is running or linking fails. -/
def discovered (agentId : ActorId) (x : Cluster) (linked : Bool) : Cluster :=
  let env : DiscoveryEnv := ⟨x.updater.isNone, linked, ⟨x.tasks⟩⟩
  let y := x.handled agentId (.agentActorDiscovered ⟨agentId⟩ env)
  if updaterIsRunning x.scheduler.agentKeepaliveTasks agentId env || !linked then y
  else { y with updater := some (Updater.start ⟨x.tasks⟩), tasks := x.tasks + 1 }

/-- The updates of one task arrive in the order it sent them. -/
def isNext (mailbox : List Letter) (position : Nat) (letter : Letter) : Bool :=
  (mailbox.take position).all fun earlier => earlier.sender ≠ letter.sender

def next (agentId : ActorId) (x : Cluster) : Move → Option Cluster
  | .perform op =>
    some { x with agent := x.agent.perform op, changes := x.changes ++ x.agent.changesOf op }
  | .answer =>
    match x.updater with
    | some updater =>
      if updater.awaiting.isNone then
        some { x with updater := some { updater with awaiting := some (answer x.agent updater) } }
      else none
    | none => none
  | .forward =>
    match x.updater with
    | some updater =>
      match updater.awaiting with
      | some answer =>
        some { x with
          updater := some (updater.forwarded answer)
          mailbox := x.mailbox ++ [⟨updater.task, .updated answer⟩] }
      | none => none
    | none => none
  | .lose =>
    match x.updater with
    | some updater => some (x.pollFailed updater)
    | none => none
  | .deliver position now =>
    match x.mailbox[position]? with
    | some letter =>
      -- any waiting letter, as long as its task has not sent an earlier one
      if isNext x.mailbox position letter then
        some ((x.taken position letter).handled agentId (letter.event agentId now))
      else none
    | none => none
  | .discover linked => some (x.discovered agentId linked)
  | .handle event => if isPolling agentId event then none else some (x.handled agentId event)
  | .rehash => none

def Step (agentId : ActorId) (x : Cluster) (move : Move) (y : Cluster) : Prop :=
  x.next agentId move = some y ∨
    (move = .rehash ∧ Rehash x.scheduler y.scheduler ∧ y = { x with scheduler := y.scheduler })

/-- No letter of an earlier task is handled after one of a later task. -/
def InOrder (x : Cluster) : Move → Prop
  | .deliver position _ =>
    ((x.mailbox[position]?).all fun letter => x.latest ≤ letter.sender.task) = true
  | _ => True

instance (x : Cluster) (move : Move) : Decidable (InOrder x move) :=
  match move with
  | .deliver .. => inferInstanceAs (Decidable (_ = true))
  | .perform _ | .answer | .forward | .lose | .discover _ | .handle _ | .rehash =>
    inferInstanceAs (Decidable True)

section Moves

variable {agentId : ActorId} {x y : Cluster}

/-- What a move of the system can do. -/
inductive Moved (agentId : ActorId) (x : Cluster) : Move → Cluster → Prop where
  | performed (op : MembershipOp) : Moved agentId x (.perform op)
      { x with agent := x.agent.perform op, changes := x.changes ++ x.agent.changesOf op }
  | answered (updater : Updater) : x.updater = some updater → Moved agentId x .answer
      { x with updater := some { updater with awaiting := some (Cluster.answer x.agent updater) } }
  | forwarded (updater : Updater) (answer : Answer) : x.updater = some updater →
      updater.awaiting = some answer → Moved agentId x .forward
        { x with
          updater := some (updater.forwarded answer)
          mailbox := x.mailbox ++ [⟨updater.task, .updated answer⟩] }
  | failed (updater : Updater) : x.updater = some updater →
      Moved agentId x .lose (x.pollFailed updater)
  | delivered (position : Nat) (now : Instant) (letter : Letter) :
      x.mailbox[position]? = some letter → isNext x.mailbox position letter = true →
      Moved agentId x (.deliver position now)
        ((x.taken position letter).handled agentId (letter.event agentId now))
  | discovered (linked : Bool) : Moved agentId x (.discover linked) (x.discovered agentId linked)
  | handled (event : Event) : isPolling agentId event = false →
      Moved agentId x (.handle event) (x.handled agentId event)

theorem moved_of_next {move : Move} (hnext : x.next agentId move = some y) :
    Moved agentId x move y := by
  cases move with
  | perform op =>
    obtain rfl := Option.some.inj hnext
    exact .performed op
  | answer =>
    simp only [Cluster.next] at hnext
    split at hnext
    · next updater hupdater =>
      split at hnext
      · obtain rfl := Option.some.inj hnext
        exact .answered updater hupdater
      · simp at hnext
    · simp at hnext
  | forward =>
    simp only [Cluster.next] at hnext
    split at hnext
    · next updater hupdater =>
      split at hnext
      · next answer hanswer =>
        obtain rfl := Option.some.inj hnext
        exact .forwarded updater answer hupdater hanswer
      · simp at hnext
    · simp at hnext
  | lose =>
    simp only [Cluster.next] at hnext
    split at hnext
    · next updater hupdater =>
      obtain rfl := Option.some.inj hnext
      exact .failed updater hupdater
    · simp at hnext
  | deliver position now =>
    simp only [Cluster.next] at hnext
    split at hnext
    · next letter hletter =>
      split at hnext
      · next hfirst =>
        obtain rfl := Option.some.inj hnext
        exact .delivered position now letter hletter hfirst
      · simp at hnext
    · simp at hnext
  | discover linked =>
    obtain rfl := Option.some.inj hnext
    exact .discovered linked
  | handle event =>
    simp only [Cluster.next] at hnext
    split at hnext
    · simp at hnext
    · next hpolling =>
      obtain rfl := Option.some.inj hnext
      exact .handled event (Bool.not_eq_true _ ▸ hpolling)
  | rehash => simp [Cluster.next] at hnext

/-- The agent and its log move only by its own operations. -/
theorem Moved.agent_kept {move : Move} (h : Moved agentId x move y)
    (hmove : ∀ op, move ≠ .perform op) : y.agent = x.agent ∧ y.changes = x.changes := by
  cases h with
  | performed op => exact absurd rfl (hmove op)
  | failed updater =>
    unfold Cluster.pollFailed
    dsimp only
    split <;> exact ⟨rfl, rfl⟩
  | discovered linked =>
    unfold Cluster.discovered
    dsimp only
    split <;> exact ⟨rfl, rfl⟩
  | _ => exact ⟨rfl, rfl⟩

theorem Moved.reachable {move : Move} (h : Moved agentId x move y)
    (hreach : SchedulerActor.Reachable x.scheduler) : SchedulerActor.Reachable y.scheduler := by
  cases h with
  | failed updater =>
    unfold Cluster.pollFailed
    dsimp only
    split <;> exact hreach
  | delivered position now letter => exact hreach.handle (letter.event agentId now)
  | discovered linked =>
    unfold Cluster.discovered
    dsimp only
    split <;> exact hreach.handle
      (.agentActorDiscovered ⟨agentId⟩ ⟨x.updater.isNone, linked, ⟨x.tasks⟩⟩)
  | handled event => exact hreach.handle event
  | _ => exact hreach

theorem Moved.recorded {move : Move} (h : Moved agentId x move y)
    (hrecorded : Recorded x.changes x.agent) : Recorded y.changes y.agent := by
  by_cases hmove : ∃ op, move = .perform op
  · obtain ⟨op, rfl⟩ := hmove
    cases h
    exact hrecorded.perform op
  · obtain ⟨hagent, hchanges⟩ := h.agent_kept fun op heq => hmove ⟨op, heq⟩
    rw [hagent, hchanges]
    exact hrecorded

/-- The agent makes at most one membership change in a move. -/
theorem changes_of_step {move : Move} (h : Step agentId x move y) :
    ∃ made, y.changes = x.changes ++ made ∧ made.length ≤ 1 := by
  have hkept : y.changes = x.changes → ∃ made, y.changes = x.changes ++ made ∧ made.length ≤ 1 :=
    fun heq => ⟨[], by rw [heq, List.append_nil], Nat.zero_le 1⟩
  cases h with
  | inl hnext =>
    by_cases hmove : ∃ op, move = .perform op
    · obtain ⟨op, rfl⟩ := hmove
      obtain rfl := Option.some.inj hnext
      refine ⟨x.agent.changesOf op, rfl, ?_⟩
      cases op <;> (unfold changesOf; dsimp only; split <;> simp)
    · exact hkept ((moved_of_next hnext).agent_kept fun op heq => hmove ⟨op, heq⟩).2
  | inr hrehash =>
    apply hkept
    rw [hrehash.2.2]

end Moves

section Samples

/-- The run of the moves, up to the first one that is not possible. -/
def play (agentId : ActorId) : Cluster → List Move → List (Move × Cluster)
  | _, [] => []
  | x, move :: rest =>
    match x.next agentId move with
    | some y => (move, y) :: play agentId y rest
    | none => []

theorem isRun_play (agentId : ActorId) (x : Cluster) (moves : List Move) :
    Transition.IsRun (Step agentId) x (play agentId x moves) := by
  induction moves generalizing x with
  | nil => trivial
  | cons move rest ih =>
    unfold play
    split
    · next y hnext => exact ⟨Or.inl hnext, ih y⟩
    · trivial

def sampleCluster : Cluster := onStart ⟨none, none⟩ ⟨4, 4096, none⟩

end Samples

end Cluster

end Odorobo
