import Odorobo.Replication
import Odorobo.UpdaterTasks

/-! The cluster with the program of the updater task in place of its summary. The task
runs call by call and can be aborted between any two; its letters wait in the one
mailbox of the scheduler, which is handled in the order of arrival. This refines the
cluster in which whole polls are moves. -/

namespace Odorobo

open Program SchedulerActor AgentActor

/-- A running task and the rest of its round. -/
structure LiveTask where
  handle : JoinHandle
  rest : AgentTask (Option AgentTask.Locals)

/-- The next round follows a finished one. -/
def LiveTask.resume (handle : JoinHandle) : AgentTask (Option AgentTask.Locals) → Option LiveTask
  | .done none => none
  | .done (some s) => some ⟨handle, AgentTask.agentUpdaterTask s⟩
  | .call c next => some ⟨handle, .call c next⟩

/-- As in `Cluster`, `changes` is the log of the membership changes. -/
structure TaskCluster where
  agent : AgentActor
  changes : List (Ulid × Bool)
  running : Option LiveTask
  mailbox : List Letter
  scheduler : SchedulerActor
  tasks : Nat

namespace TaskCluster

def onStart (config : Config) (host : Host) : TaskCluster where
  agent := AgentActor.onStart config host
  changes := []
  running := none
  mailbox := []
  scheduler := SchedulerActor.onStart
  tasks := 0

/-- How a call of the task may be answered, and what it puts in the mailbox. A request
may fail whether or not it reached the agent. -/
def Answers (x : TaskCluster) (handle : JoinHandle) :
    (c : AgentUpdaterCall) → c.Reply → List Letter → Prop
  | .getAgentStatus request, reply, letters => letters = [] ∧
      ((∃ e, reply = .error e) ∨
        reply = .ok ⟨x.agent.getAgentStatus request, x.agent.getAgentStatus_disjoint request⟩)
  | .agentUpdated answer, reply, letters => reply = .ok () ∧ letters = [⟨handle, .updated answer⟩]
  | .agentUpdaterStopped, reply, letters => reply = .ok () ∧ letters = [⟨handle, .stopped⟩]
  | .tick, _, letters => letters = []

/-- The scheduler handles an event; a task whose handle is dropped is aborted. -/
def handled (agentId : ActorId) (x : TaskCluster) (event : Event) : TaskCluster :=
  let scheduler := x.scheduler.handle event
  { x with
    scheduler := scheduler
    running := x.running.filter fun task =>
      scheduler.agentKeepaliveTasks.get agentId = some task.handle }

def discovered (agentId : ActorId) (x : TaskCluster) (linked : Bool) : TaskCluster :=
  let env : DiscoveryEnv := ⟨x.running.isNone, linked, ⟨x.tasks⟩⟩
  let y := x.handled agentId (.agentActorDiscovered ⟨agentId⟩ env)
  if updaterIsRunning x.scheduler.agentKeepaliveTasks agentId env || !linked then y
  else
    { y with
      running := some ⟨⟨x.tasks⟩, AgentTask.agentUpdaterTask AgentTask.start⟩
      tasks := x.tasks + 1 }

inductive Move where
  | perform (op : MembershipOp)
  | work
  | deliver (now : Instant)
  | discover (linked : Bool)
  | handle (event : Event)
  | rehash

inductive Step (agentId : ActorId) (x : TaskCluster) : Move → TaskCluster → Prop where
  | perform (op : MembershipOp) : Step agentId x (.perform op)
      { x with agent := x.agent.perform op, changes := x.changes ++ x.agent.changesOf op }
  | work (handle : JoinHandle) (c : AgentUpdaterCall)
      (next : c.Reply → AgentTask (Option AgentTask.Locals)) (reply : c.Reply)
      (letters : List Letter) (hrunning : x.running = some ⟨handle, .call c next⟩)
      (hanswer : x.Answers handle c reply letters) : Step agentId x .work
        { x with
          running := LiveTask.resume handle (next reply)
          mailbox := x.mailbox ++ letters }
  | deliver (now : Instant) (letter : Letter) (rest : List Letter)
      (hmailbox : x.mailbox = letter :: rest) : Step agentId x (.deliver now)
        (handled agentId { x with mailbox := rest } (letter.event agentId now))
  | discover (linked : Bool) : Step agentId x (.discover linked) (x.discovered agentId linked)
  | handle (event : Event) (helsewhere : Cluster.isPolling agentId event = false) :
      Step agentId x (.handle event) (x.handled agentId event)
  | rehash (scheduler : SchedulerActor) (hrehash : Rehash x.scheduler scheduler) :
      Step agentId x .rehash { x with scheduler := scheduler }

/-! What the summary of the task knows at each of its calls. -/

/-- The task is about to ask, to pass an answer on, to give notice or to wait. -/
inductive Follows : LiveTask → Updater → Prop where
  | asking (handle : JoinHandle) (request : GetAgentStatus) (fails : Fin (2 ^ 8))
      (hfails : fails ≤ 5) :
      Follows ⟨handle, AgentTask.agentUpdaterTask (request, fails)⟩
        ⟨handle, request.sinceRevision, request.initial, fails, none⟩
  | telling (handle : JoinHandle) (request : GetAgentStatus) (fails : Fin (2 ^ 8))
      (answer : Answer)
      (next : Except String Unit → AgentTask (Option AgentTask.Locals))
      (hnext : next (.ok ()) = .call .tick fun _ =>
        .done (some (⟨answer.1.revision, false⟩, 0))) :
      Follows ⟨handle, .call (.agentUpdated answer) next⟩
        ⟨handle, request.sinceRevision, request.initial, fails, some answer⟩
  | stopping (handle : JoinHandle) (request : GetAgentStatus) (fails : Fin (2 ^ 8))
      (hfails : 5 < Saturating.add fails 1) :
      Follows ⟨handle, .call .agentUpdaterStopped fun _ => .done none⟩
        ⟨handle, request.sinceRevision, request.initial, fails, none⟩
  | waiting (handle : JoinHandle) (request : GetAgentStatus) (fails : Fin (2 ^ 8))
      (hfails : fails ≤ 5) :
      Follows ⟨handle, .call .tick fun _ => .done (some (request, fails))⟩
        ⟨handle, request.sinceRevision, request.initial, fails, none⟩

theorem Follows.handle_eq {task : LiveTask} {updater : Updater} (h : Follows task updater) :
    updater.task = task.handle := by
  cases h <;> rfl

/-- A state of the cluster with whole polls that matches: no letter that waits is of an
earlier task than one that was handled. -/
structure Refines (x : TaskCluster) (y : Cluster) : Prop where
  agent : y.agent = x.agent
  changes : y.changes = x.changes
  mailbox : y.mailbox = x.mailbox
  scheduler : y.scheduler = x.scheduler
  tasks : y.tasks = x.tasks
  running : Option.Rel Follows x.running y.updater
  ordered : Cluster.Ordered y
  young : ∀ letter ∈ y.mailbox, y.latest ≤ letter.sender.task

section Steps

variable {agentId : ActorId} {x : TaskCluster} {y : Cluster}

/-- The calls of a round, one after the other. -/
theorem agentUpdaterTask_eq (request : GetAgentStatus) (fails : Fin (2 ^ 8)) :
    AgentTask.agentUpdaterTask (request, fails) = .call (.getAgentStatus request) fun
      | .error _ => settle 5 .agentUpdaterStopped .tick request (Saturating.add fails 1)
      | .ok answer => .call (.agentUpdated answer) fun
        | .error _ => .done none
        | .ok () => .call .tick fun _ => .done (some (⟨answer.1.revision, false⟩, 0)) := by
  unfold AgentTask.agentUpdaterTask pollRound AgentTask.poll AgentTask.getAgentStatus ask
  simp only [Program.bind]
  congr 1
  funext reply
  cases reply with
  | error e => rfl
  | ok answer =>
    unfold AgentTask.agentUpdated ask
    simp only [Program.bind]
    congr 1
    funext sent
    cases sent <;> rfl

theorem Refines.updater_of_running (h : Refines x y) {task : LiveTask}
    (hrunning : x.running = some task) :
    ∃ updater, y.updater = some updater ∧ Follows task updater := by
  have hrel := h.running
  rw [hrunning] at hrel
  generalize y.updater = running at hrel
  cases hrel with
  | some hfollows => exact ⟨_, rfl, hfollows⟩

/-- The task makes a call that its summary does not see. -/
theorem Refines.idle (h : Refines x y) {task : LiveTask} {updater : Updater}
    (hupdater : y.updater = some updater) (hfollows : Follows task updater) :
    Refines { x with running := some task, mailbox := x.mailbox ++ [] } y where
  agent := h.agent
  changes := h.changes
  mailbox := by
    rw [h.mailbox, List.append_nil]
  scheduler := h.scheduler
  tasks := h.tasks
  running := by
    rw [hupdater]
    exact .some hfollows
  ordered := h.ordered
  young := h.young

/-- The summary moves with the task, which may have sent letters. -/
theorem Refines.moved (h : Refines x y) {move : Cluster.Move} {updater : Updater}
    (hupdater : y.updater = some updater) {next : Option Updater} {running : Option LiveTask}
    {letters : List Letter}
    (hnext : y.next agentId move =
      some { y with updater := next, mailbox := y.mailbox ++ letters })
    (hletters : ∀ letter ∈ letters, letter.sender = updater.task)
    (hrunning : Option.Rel Follows running next) :
    Refines { x with running := running, mailbox := x.mailbox ++ letters }
      { y with updater := next, mailbox := y.mailbox ++ letters } where
  agent := h.agent
  changes := h.changes
  mailbox := by
    dsimp only
    rw [h.mailbox]
  scheduler := h.scheduler
  tasks := h.tasks
  running := hrunning
  ordered := h.ordered.moved (Cluster.moved_of_next hnext)
  young letter hmem := by
    cases List.mem_append.mp hmem with
    | inl hold => exact h.young letter hold
    | inr hnew =>
      rw [hletters letter hnew]
      exact (h.ordered.current updater hupdater).2.1

/-- A call of the task is matched by a move of its summary or by none. -/
theorem Refines.work (h : Refines x y) {handle : JoinHandle} {c : AgentUpdaterCall}
    {next : c.Reply → AgentTask (Option AgentTask.Locals)} {reply : c.Reply}
    {letters : List Letter} (hrunning : x.running = some ⟨handle, .call c next⟩)
    (hanswer : x.Answers handle c reply letters) :
    ∃ run, Transition.IsRun (Cluster.Step agentId) y run ∧
      Transition.AllSteps Cluster.InOrder y run ∧
        Refines { x with
          running := LiveTask.resume handle (next reply)
          mailbox := x.mailbox ++ letters } (Transition.final y run) := by
  obtain ⟨updater, hupdater, hfollows⟩ := h.updater_of_running hrunning
  generalize htask : (⟨handle, .call c next⟩ : LiveTask) = task at hfollows
  cases hfollows with
  | asking _ request fails hfails =>
    obtain ⟨rfl, hcall⟩ := LiveTask.mk.inj htask
    rw [agentUpdaterTask_eq] at hcall
    obtain ⟨rfl, hcont⟩ := Program.call.inj hcall
    obtain rfl := eq_of_heq hcont
    obtain ⟨rfl, ⟨e, rfl⟩ | rfl⟩ := hanswer
    · by_cases hover : 5 < Saturating.add fails 1
      · -- the summary counts the last failure together with the notice
        refine ⟨[], trivial, trivial, ?_⟩
        dsimp only
        rw [settle, if_pos hover]
        exact h.idle hupdater (.stopping handle request fails hover)
      · have hnext : y.next agentId .lose = some { y with
            updater := some ⟨handle, request.sinceRevision, request.initial,
              Saturating.add fails 1, none⟩
            mailbox := y.mailbox ++ [] } := by
          simp [Cluster.next, hupdater, Cluster.pollFailed, hover]
        refine ⟨[(.lose, _)], ⟨Or.inl hnext, trivial⟩, ⟨trivial, trivial⟩, ?_⟩
        dsimp only
        rw [settle, if_neg hover]
        refine h.moved hupdater hnext (by simp) (.some ?_)
        exact .waiting handle request _ (Fin.not_lt.mp hover)
    · have hnext : y.next agentId .answer = some { y with
          updater := some ⟨handle, request.sinceRevision, request.initial, fails,
            some ⟨x.agent.getAgentStatus request, x.agent.getAgentStatus_disjoint request⟩⟩
          mailbox := y.mailbox ++ [] } := by
        simp [Cluster.next, hupdater, Cluster.answer, Updater.request, h.agent]
      refine ⟨[(.answer, _)], ⟨Or.inl hnext, trivial⟩, ⟨trivial, trivial⟩, ?_⟩
      exact h.moved hupdater hnext (by simp) (.some (.telling handle request fails _ _ rfl))
  | telling _ request fails answer after hafter =>
    obtain ⟨rfl, hcall⟩ := LiveTask.mk.inj htask
    obtain ⟨rfl, hcont⟩ := Program.call.inj hcall
    obtain rfl := eq_of_heq hcont
    obtain ⟨rfl, rfl⟩ := hanswer
    have hnext : y.next agentId .forward = some { y with
        updater := some ⟨handle, answer.1.revision, false, 0, none⟩
        mailbox := y.mailbox ++ [⟨handle, .updated answer⟩] } := by
      simp [Cluster.next, hupdater, Updater.forwarded]
    refine ⟨[(.forward, _)], ⟨Or.inl hnext, trivial⟩, ⟨trivial, trivial⟩, ?_⟩
    rw [hafter]
    refine h.moved hupdater hnext (by simp) (.some ?_)
    exact .waiting handle ⟨answer.1.revision, false⟩ 0 (Fin.zero_le _)
  | stopping _ request fails hfails =>
    obtain ⟨rfl, hcall⟩ := LiveTask.mk.inj htask
    obtain ⟨rfl, hcont⟩ := Program.call.inj hcall
    obtain rfl := eq_of_heq hcont
    obtain ⟨rfl, rfl⟩ := hanswer
    have hnext : y.next agentId .lose = some { y with
        updater := none
        mailbox := y.mailbox ++ [⟨handle, .stopped⟩] } := by
      simp [Cluster.next, hupdater, Cluster.pollFailed, hfails]
    refine ⟨[(.lose, _)], ⟨Or.inl hnext, trivial⟩, ⟨trivial, trivial⟩, ?_⟩
    exact h.moved hupdater hnext (by simp) .none
  | waiting _ request fails hfails =>
    obtain ⟨rfl, hcall⟩ := LiveTask.mk.inj htask
    obtain ⟨rfl, hcont⟩ := Program.call.inj hcall
    obtain rfl := eq_of_heq hcont
    obtain rfl : letters = [] := hanswer
    refine ⟨[], trivial, trivial, ?_⟩
    exact h.idle hupdater (.asking handle request fails hfails)

theorem Refines.handled (h : Refines x y) (event : Event) :
    Refines (x.handled agentId event) (y.handled agentId event) where
  agent := h.agent
  changes := h.changes
  mailbox := h.mailbox
  scheduler := by
    unfold TaskCluster.handled Cluster.handled
    rw [h.scheduler]
  tasks := h.tasks
  running := by
    have hrel := h.running
    unfold TaskCluster.handled Cluster.handled
    dsimp only
    rw [h.scheduler]
    generalize x.running = running at hrel
    generalize y.updater = updater at hrel
    cases hrel with
    | none => exact .none
    | some hfollows =>
      rw [Option.filter_some, Option.filter_some, hfollows.handle_eq]
      split
      · exact .some hfollows
      · exact .none
  ordered := h.ordered.handled event
  young := h.young

/-- The first letter of the mailbox is handled. -/
theorem Refines.taken (h : Refines x y) {letter : Letter} {rest : List Letter}
    (hmailbox : x.mailbox = letter :: rest) :
    Refines { x with mailbox := rest } (y.taken 0 letter) where
  agent := h.agent
  changes := h.changes
  mailbox := by
    unfold Cluster.taken
    rw [h.mailbox, hmailbox]
    rfl
  scheduler := h.scheduler
  tasks := h.tasks
  running := h.running
  ordered := by
    apply h.ordered.taken
    rw [h.mailbox, hmailbox]
    rfl
  young other hmem := by
    unfold Cluster.taken at hmem ⊢
    rw [h.mailbox, hmailbox] at hmem
    have hsorted := h.ordered.sorted
    rw [h.mailbox, hmailbox, List.pairwise_cons] at hsorted
    have hyoung := h.young other (by
      rw [h.mailbox, hmailbox]
      exact List.mem_cons_of_mem letter hmem)
    exact max_le hyoung (hsorted.1 other hmem)

theorem Refines.discovered (h : Refines x y) (linked : Bool) :
    Refines (x.discovered agentId linked) (y.discovered agentId linked) := by
  have hnone : y.updater.isNone = x.running.isNone := by
    have hrel := h.running
    generalize x.running = running at hrel
    generalize y.updater = updater at hrel
    cases hrel <;> rfl
  have hhandled : Refines
      (x.handled agentId (.agentActorDiscovered ⟨agentId⟩ ⟨x.running.isNone, linked, ⟨x.tasks⟩⟩))
      (y.handled agentId (.agentActorDiscovered ⟨agentId⟩ ⟨x.running.isNone, linked, ⟨x.tasks⟩⟩)) :=
    h.handled _
  have hordered : Cluster.Ordered (y.discovered agentId linked) := h.ordered.discovered linked
  unfold TaskCluster.discovered
  unfold Cluster.discovered at hordered ⊢
  dsimp only at hordered ⊢
  rw [hnone, h.scheduler, h.tasks] at hordered ⊢
  split
  · exact hhandled
  · next hspawn =>
    rw [if_neg hspawn] at hordered
    exact
      { agent := hhandled.agent
        changes := hhandled.changes
        mailbox := hhandled.mailbox
        scheduler := hhandled.scheduler
        tasks := rfl
        running := .some (.asking _ _ _ (Fin.zero_le _))
        ordered := hordered
        young := hhandled.young }

/-- Each step is matched by a move of the cluster, or by none. -/
theorem Refines.step (h : Refines x y) {move : Move} {x' : TaskCluster}
    (hstep : Step agentId x move x') :
    ∃ run, Transition.IsRun (Cluster.Step agentId) y run ∧
      Transition.AllSteps Cluster.InOrder y run ∧ Refines x' (Transition.final y run) := by
  cases hstep with
  | perform op =>
    have hnext : y.next agentId (.perform op) = some
        { y with agent := y.agent.perform op, changes := y.changes ++ y.agent.changesOf op } := rfl
    refine ⟨[(.perform op, _)], ⟨Or.inl hnext, trivial⟩, ⟨trivial, trivial⟩, ?_⟩
    exact
      { agent := congrArg (fun agent => agent.perform op) h.agent
        changes := by
          dsimp only [Transition.final]
          rw [h.changes, h.agent]
        mailbox := h.mailbox
        scheduler := h.scheduler
        tasks := h.tasks
        running := h.running
        ordered := h.ordered.moved (Cluster.moved_of_next hnext)
        young := h.young }
  | work handle c next reply letters hrunning hanswer => exact h.work hrunning hanswer
  | deliver now letter rest hmailbox =>
    have hfirst : y.mailbox[0]? = some letter := by
      rw [h.mailbox, hmailbox]
      rfl
    have hnext : y.next agentId (.deliver 0 now) =
        some ((y.taken 0 letter).handled agentId (letter.event agentId now)) := by
      simp [Cluster.next, hfirst, Cluster.isNext]
    refine ⟨[(.deliver 0 now, _)], ⟨Or.inl hnext, trivial⟩, ⟨?_, trivial⟩, ?_⟩
    · have hyoung := h.young letter (by simp [h.mailbox, hmailbox])
      simpa [Cluster.InOrder, hfirst] using hyoung
    · exact (h.taken hmailbox).handled (letter.event agentId now)
  | discover linked =>
    refine ⟨[(.discover linked, _)], ⟨Or.inl rfl, trivial⟩, ⟨trivial, trivial⟩, ?_⟩
    exact h.discovered linked
  | handle event helsewhere =>
    have hnext : y.next agentId (.handle event) = some (y.handled agentId event) := by
      simp [Cluster.next, helsewhere]
    refine ⟨[(.handle event, _)], ⟨Or.inl hnext, trivial⟩, ⟨trivial, trivial⟩, ?_⟩
    exact h.handled event
  | rehash scheduler hrehash =>
    have hsame : Rehash y.scheduler scheduler := by
      rw [h.scheduler]
      exact hrehash
    refine ⟨[(.rehash, { y with scheduler := scheduler })], ⟨Or.inr ⟨rfl, hsame, rfl⟩, trivial⟩,
      ⟨trivial, trivial⟩, ?_⟩
    exact
      { agent := h.agent
        changes := h.changes
        mailbox := h.mailbox
        scheduler := rfl
        tasks := h.tasks
        running := h.running
        ordered := ⟨h.ordered.sorted, h.ordered.spawned, h.ordered.latest, h.ordered.current⟩
        young := h.young }

theorem refines_onStart (config : Config) (host : Host) :
    Refines (onStart config host) (Cluster.onStart config host) where
  agent := rfl
  changes := rfl
  mailbox := rfl
  scheduler := rfl
  tasks := rfl
  running := .none
  ordered := (show Cluster.Invariant ⟨0, 0⟩ (Cluster.onStart config host) from
    Cluster.invariant_onStart config host).ordered
  young := by simp [Cluster.onStart]

end Steps

/-- However the calls of the task interleave with the agent, the scheduler and aborts of
the task, the run is one of the cluster with whole polls in which no letter overtakes
one of a later task. So whenever the agent is cached, the cached status lists exactly
the VMs that the agent held at the cached revision. -/
theorem updater_task_refines (agentId : ActorId) (config : Config) (host : Host)
    (run : List (Move × TaskCluster))
    (isRun : Transition.IsRun (Step agentId) (onStart config host) run) :
    (∃ run', Transition.IsRun (Cluster.Step agentId) (Cluster.onStart config host) run' ∧
      Transition.AllSteps Cluster.InOrder (Cluster.onStart config host) run' ∧
        ∀ x, Transition.Visits (onStart config host) run x →
          ∃ y, Transition.Visits (Cluster.onStart config host) run' y ∧ Refines x y) ∧
      ∀ x, Transition.Visits (onStart config host) run x → x.changes.length < 2 ^ 64 →
        ∀ cached, x.scheduler.agentDataCache.get agentId = some cached →
          cached.statusRevision.val ≤ x.changes.length ∧ cached.data.vms.Pairwise (· < ·) ∧
            ∀ vmid, vmid ∈ cached.data.vms ↔
              vmid ∈ ChangeLog.heldAt x.changes cached.statusRevision.val := by
  obtain ⟨run', hrun', hordered, hvisits⟩ := Transition.exists_simulation
    (D := Cluster.InOrder) (fun _ _ _ _ h hstep => h.step hstep)
    (onStart config host) run isRun (refines_onStart config host)
  refine ⟨⟨run', hrun', hordered, hvisits⟩, fun x hx hfew cached hcached => ?_⟩
  obtain ⟨y, hy, hrefines⟩ := hvisits x hx
  have hinv := (Cluster.invariant_of_run hrun' hordered).visited hy
  rw [← hrefines.changes] at hfew ⊢
  rw [← hrefines.scheduler] at hcached
  obtain ⟨read, sent, hin⟩ := hinv.inStep hfew
  obtain ⟨⟨last, hread⟩, hmirrors⟩ := hin.cached cached hcached
  exact ⟨hin.past last _ hread, hmirrors.increasing, hmirrors.held⟩

section Samples

/-- What a call of the task yields when it succeeds. -/
def succeeds (x : TaskCluster) (handle : JoinHandle) :
    (c : AgentUpdaterCall) → c.Reply × List Letter
  | .getAgentStatus request =>
    (.ok ⟨x.agent.getAgentStatus request, x.agent.getAgentStatus_disjoint request⟩, [])
  | .agentUpdated answer => (.ok (), [⟨handle, .updated answer⟩])
  | .agentUpdaterStopped => (.ok (), [⟨handle, .stopped⟩])
  | .tick => ((), [])

def next (agentId : ActorId) (x : TaskCluster) : Move → Option TaskCluster
  | .perform op =>
    some { x with agent := x.agent.perform op, changes := x.changes ++ x.agent.changesOf op }
  | .work =>
    match x.running with
    | some ⟨updater, .call c next⟩ =>
      some { x with
        running := LiveTask.resume updater (next (x.succeeds updater c).1)
        mailbox := x.mailbox ++ (x.succeeds updater c).2 }
    | _ => none
  | .deliver now =>
    match x.mailbox with
    | letter :: rest => some (handled agentId { x with mailbox := rest } (letter.event agentId now))
    | [] => none
  | .discover linked => some (x.discovered agentId linked)
  | .handle event =>
    if Cluster.isPolling agentId event then none else some (x.handled agentId event)
  | .rehash => none

theorem step_of_next {agentId : ActorId} {x y : TaskCluster} {move : Move}
    (h : x.next agentId move = some y) : Step agentId x move y := by
  cases move with
  | perform op =>
    obtain rfl := Option.some.inj h
    exact .perform op
  | work =>
    simp only [next] at h
    split at h
    · next handle c next hrunning =>
      obtain rfl := Option.some.inj h
      refine .work handle c next _ _ hrunning ?_
      cases c with
      | getAgentStatus request => exact ⟨rfl, Or.inr rfl⟩
      | agentUpdated answer => exact ⟨rfl, rfl⟩
      | agentUpdaterStopped => exact ⟨rfl, rfl⟩
      | tick => exact rfl
    · simp at h
  | deliver now =>
    simp only [next] at h
    split at h
    · next letter rest hmailbox =>
      obtain rfl := Option.some.inj h
      exact .deliver now letter rest hmailbox
    · simp at h
  | discover linked =>
    obtain rfl := Option.some.inj h
    exact .discover linked
  | handle event =>
    simp only [next] at h
    split at h
    · simp at h
    · next helsewhere =>
      obtain rfl := Option.some.inj h
      exact .handle event (Bool.not_eq_true _ ▸ helsewhere)
  | rehash => simp [next] at h

/-- A VM arrives between an answer and its delivery; the next delta is on its way when
the agent is lost, and is handled before the snapshot of a new task. -/
def lateMoves : List Move :=
  [.discover true, .work, .perform (.insertVm 5 ⟨⟨vmActorOne⟩, sampleManifest 5, 1, 512⟩), .work,
    .deliver 0, .work, .work, .work, .handle (.linkDied agentOne), .deliver 0, .discover true,
    .work, .work, .deliver 0]

def lateRun : List (Move × TaskCluster) :=
  Transition.play (next agentOne) (onStart ⟨none, none⟩ ⟨4, 4096, none⟩) lateMoves

theorem updater_task_refines_late :
    let x := Transition.final (onStart ⟨none, none⟩ ⟨4, 4096, none⟩) lateRun
    ((x.scheduler.agentDataCache.get agentOne).map
        fun cached => (cached.data.vms, cached.statusRevision)) = some ([5], 1) ∧
      ∀ cached, x.scheduler.agentDataCache.get agentOne = some cached → ∀ vmid,
        vmid ∈ cached.data.vms ↔ vmid ∈ ChangeLog.heldAt x.changes cached.statusRevision.val := by
  refine ⟨by decide +kernel, fun cached hcached => ?_⟩
  have hrun : Transition.IsRun (Step agentOne) (onStart ⟨none, none⟩ ⟨4, 4096, none⟩) lateRun :=
    Transition.isRun_play (fun _ _ _ => step_of_next) _ lateMoves
  have hexact := (updater_task_refines agentOne ⟨none, none⟩ ⟨4, 4096, none⟩ lateRun hrun).2 _
    (Transition.visits_final _ _) (by decide +kernel) cached hcached
  exact hexact.2.2

end Samples

end TaskCluster

end Odorobo
