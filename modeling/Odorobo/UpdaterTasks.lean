import Odorobo.Cluster
import Odorobo.Polling

/-! The updater tasks of the scheduler. The one of a VM actor learns the identity of
its VM and then sends heartbeats; the one of an agent asks for what changed since the
last answer. Both give notice after six failures in a row. -/

namespace Odorobo

open Program

inductive VmUpdaterCall where
  | getVMInfo (vmid : Option Ulid)
  | getVMHeartbeat
  | vmUpdated (data : GetVMInfoReply)
  | vmUpdaterStopped
  | tick
  deriving DecidableEq

/-- A heartbeat is answered with the id of the VM. -/
abbrev VmUpdaterCall.Reply : VmUpdaterCall → Type
  | getVMInfo _ => Except String GetVMInfoReply
  | getVMHeartbeat => Except String Ulid
  | vmUpdated _ => Except String Unit
  | vmUpdaterStopped => Except String Unit
  | tick => Unit

inductive AgentUpdaterCall where
  | getAgentStatus (request : GetAgentStatus)
  | agentUpdated (answer : Answer)
  | agentUpdaterStopped
  | tick

abbrev AgentUpdaterCall.Reply : AgentUpdaterCall → Type
  | getAgentStatus _ => Except String Answer
  | agentUpdated _ => Except String Unit
  | agentUpdaterStopped => Except String Unit
  | tick => Unit

abbrev VmTask := Program VmUpdaterCall VmUpdaterCall.Reply
abbrev AgentTask := Program AgentUpdaterCall AgentUpdaterCall.Reply

/-- An answer is passed on, or the scheduler is gone. -/
def ofSent {S : Type} (next : S) : Except String Unit → Polled S
  | .error _ => .silenced
  | .ok () => .answered next

namespace VmTask

def getVMInfo : VmTask (Except String GetVMInfoReply) := ask (VmUpdaterCall.getVMInfo none)
def getVMHeartbeat : VmTask (Except String Ulid) := ask VmUpdaterCall.getVMHeartbeat
def vmUpdated (data : GetVMInfoReply) : VmTask (Except String Unit) :=
  ask (VmUpdaterCall.vmUpdated data)

/-- One request of the task; the state says whether the VM has been identified. -/
def poll (initialized : Bool) : VmTask (Polled Bool) :=
  if !initialized then
    getVMInfo.bind fun
      | .ok data => (vmUpdated data).bind fun sent => .done (ofSent true sent)
      | .error _ => .done .missed
  else
    getVMHeartbeat.bind fun
      | .ok _ => .done (.answered initialized)
      | .error _ => .done .missed

def vmUpdaterTask : Bool × Fin (2 ^ 8) → VmTask (Option (Bool × Fin (2 ^ 8))) :=
  pollRound 5 .vmUpdaterStopped .tick poll

/-- Before its first round. -/
def start : Bool × Fin (2 ^ 8) := (false, 0)

abbrev Entry := (c : VmUpdaterCall) × c.Reply

def outcome : Entry → Option Bool
  | ⟨.getVMInfo _, reply⟩ => some reply.isOk
  | ⟨.getVMHeartbeat, reply⟩ => some reply.isOk
  | _ => none

def lost : Entry → Bool
  | ⟨.vmUpdated _, sent⟩ => !sent.isOk
  | _ => false

theorem runs_poll_new {trace : List Entry} {polled : Polled Bool} :
    Runs (poll false) trace polled ↔
      (∃ e, trace = [⟨.getVMInfo none, .error e⟩] ∧ polled = .missed) ∨
        ∃ data sent, trace = [⟨.getVMInfo none, .ok data⟩, ⟨.vmUpdated data, sent⟩] ∧
          polled = ofSent true sent := by
  unfold poll getVMInfo vmUpdated
  simp only [Bool.not_false, if_true, runs_bind, runs_ask]
  constructor
  · rintro ⟨before, reply, after, rfl, rfl, hafter⟩
    cases reply with
    | error e =>
      obtain ⟨rfl, rfl⟩ := runs_done.mp hafter
      exact Or.inl ⟨e, rfl, rfl⟩
    | ok data =>
      obtain ⟨told, sent, rest, rfl, htold, hrest⟩ := runs_bind.mp hafter
      obtain rfl := runs_ask.mp htold
      obtain ⟨rfl, rfl⟩ := runs_done.mp hrest
      exact Or.inr ⟨data, sent, rfl, rfl⟩
  · rintro (⟨e, rfl, rfl⟩ | ⟨data, sent, rfl, rfl⟩)
    · exact ⟨_, .error e, [], rfl, rfl, .done _⟩
    · refine ⟨_, .ok data, _, rfl, rfl, ?_⟩
      exact .call _ _ sent [] _ (.done _)

theorem runs_poll_known {trace : List Entry} {polled : Polled Bool} :
    Runs (poll true) trace polled ↔
      (∃ e, trace = [⟨.getVMHeartbeat, .error e⟩] ∧ polled = .missed) ∨
        ∃ vmid, trace = [⟨.getVMHeartbeat, .ok vmid⟩] ∧ polled = .answered true := by
  unfold poll getVMHeartbeat
  simp only [Bool.not_true, Bool.false_eq_true, if_false, runs_bind, runs_ask]
  constructor
  · rintro ⟨before, reply, after, rfl, rfl, hafter⟩
    cases reply with
    | error e =>
      obtain ⟨rfl, rfl⟩ := runs_done.mp hafter
      exact Or.inl ⟨e, rfl, rfl⟩
    | ok vmid =>
      obtain ⟨rfl, rfl⟩ := runs_done.mp hafter
      exact Or.inr ⟨vmid, rfl, rfl⟩
  · rintro (⟨e, rfl, rfl⟩ | ⟨vmid, rfl, rfl⟩)
    · exact ⟨_, .error e, [], rfl, rfl, .done _⟩
    · exact ⟨_, .ok vmid, [], rfl, rfl, .done _⟩

theorem observed : Observed VmUpdaterCall.vmUpdaterStopped .tick poll outcome lost where
  outcomes initialized trace polled h := by
    cases initialized with
    | false =>
      rcases runs_poll_new.mp h with ⟨e, rfl, rfl⟩ | ⟨data, sent, rfl, rfl⟩
      · rfl
      · cases sent <;> rfl
    | true => rcases runs_poll_known.mp h with ⟨e, rfl, rfl⟩ | ⟨vmid, rfl, rfl⟩ <;> rfl
  silenced initialized trace polled h := by
    cases initialized with
    | false =>
      rcases runs_poll_new.mp h with ⟨e, rfl, rfl⟩ | ⟨data, sent, rfl, rfl⟩
      · simp [lost]
      · cases sent <;> simp [lost, ofSent, Except.isOk, Except.toBool]
    | true => rcases runs_poll_known.mp h with ⟨e, rfl, rfl⟩ | ⟨vmid, rfl, rfl⟩ <;> simp [lost]
  unstopped initialized trace polled h := by
    cases initialized with
    | false => rcases runs_poll_new.mp h with ⟨e, rfl, rfl⟩ | ⟨data, sent, rfl, rfl⟩ <;> simp
    | true => rcases runs_poll_known.mp h with ⟨e, rfl, rfl⟩ | ⟨vmid, rfl, rfl⟩ <;> simp
  distinct := by simp
  settles c hc r := by
    rcases hc with rfl | rfl <;> exact ⟨rfl, rfl⟩

/-- What the task does before the VM has been identified. -/
def isAnonymous : Entry → Bool
  | ⟨.getVMInfo vmid, reply⟩ => vmid.isNone && !reply.isOk
  | ⟨.tick, _⟩ => true
  | ⟨.vmUpdaterStopped, _⟩ => true
  | _ => false

/-- What it does afterwards. -/
def isBeat : Entry → Bool
  | ⟨.getVMHeartbeat, _⟩ => true
  | ⟨.tick, _⟩ => true
  | ⟨.vmUpdaterStopped, _⟩ => true
  | _ => false

/-- The first answer is passed on at once, as the only one; heartbeats follow if the
scheduler took it. -/
def Introduces (trace : List Entry) : Prop :=
  ∃ before data sent beats,
    trace = before ++ ⟨.getVMInfo none, .ok data⟩ :: ⟨.vmUpdated data, sent⟩ :: beats ∧
      (∀ entry ∈ before, isAnonymous entry = true) ∧ (∀ entry ∈ beats, isBeat entry = true) ∧
      (sent ≠ .ok () → beats = [])

/-- The identity has been passed on and was taken. -/
def Identified (trace : List Entry) : Prop :=
  ∃ before data beats,
    trace = before ++ ⟨.getVMInfo none, .ok data⟩ :: ⟨.vmUpdated data, .ok ()⟩ :: beats ∧
      (∀ entry ∈ before, isAnonymous entry = true) ∧ ∀ entry ∈ beats, isBeat entry = true

def Phase (trace : List Entry) : Option (Bool × Fin (2 ^ 8)) → Prop
  | some (false, _) => ∀ entry ∈ trace, isAnonymous entry = true
  | some (true, _) => Identified trace
  | none => (∀ entry ∈ trace, isAnonymous entry = true) ∨ Introduces trace

theorem Identified.append {before trace : List Entry} (h : Identified before)
    (hbeats : ∀ entry ∈ trace, isBeat entry = true) : Identified (before ++ trace) := by
  obtain ⟨anonymous, data, beats, rfl, hanonymous, hearlier⟩ := h
  refine ⟨anonymous, data, beats ++ trace, by simp, hanonymous, ?_⟩
  exact List.forall_mem_append.mpr ⟨hearlier, hbeats⟩

theorem Identified.introduces {trace : List Entry} (h : Identified trace) : Introduces trace := by
  obtain ⟨anonymous, data, beats, rfl, hanonymous, hbeats⟩ := h
  exact ⟨anonymous, data, .ok (), beats, rfl, hanonymous, hbeats, fun hne => absurd rfl hne⟩

/-- How a round that was not silenced ends. -/
theorem settled_cases {next : Bool} {fails : Fin (2 ^ 8)} {settled : List Entry}
    {y : Option (Bool × Fin (2 ^ 8))}
    (h : Runs (settle 5 VmUpdaterCall.vmUpdaterStopped .tick next fails) settled y) :
    (∀ entry ∈ settled, isAnonymous entry = true ∧ isBeat entry = true) ∧
      (y = none ∨ y = some (next, fails)) := by
  rcases runs_settle.mp h with ⟨-, rfl, r, rfl⟩ | ⟨-, rfl, r, rfl⟩
  · exact ⟨by simp [isAnonymous, isBeat], Or.inl rfl⟩
  · exact ⟨by simp [isAnonymous, isBeat], Or.inr rfl⟩

theorem phase_round {before trace : List Entry} {x : Bool × Fin (2 ^ 8)}
    {y : Option (Bool × Fin (2 ^ 8))} (h : Phase before (some x))
    (hround : Runs (vmUpdaterTask x) trace y) : Phase (before ++ trace) y := by
  obtain ⟨initialized, fails⟩ := x
  obtain ⟨asked, polled, settled, rfl, hasked, hsettled⟩ := runs_bind.mp hround
  cases initialized with
  | false =>
    rcases runs_poll_new.mp hasked with ⟨e, rfl, rfl⟩ | ⟨data, sent, rfl, rfl⟩
    · obtain ⟨hquiet, hend⟩ := settled_cases hsettled
      have hall : ∀ entry ∈ before ++ ([⟨.getVMInfo none, .error e⟩] ++ settled),
          isAnonymous entry = true := by
        refine List.forall_mem_append.mpr ⟨h, List.forall_mem_append.mpr ⟨?_, ?_⟩⟩
        · simp [isAnonymous, Except.isOk, Except.toBool]
        · exact fun entry hentry => (hquiet entry hentry).1
      rcases hend with rfl | rfl
      · exact Or.inl hall
      · exact hall
    · cases sent with
      | error e =>
        obtain ⟨rfl, rfl⟩ := runs_done.mp hsettled
        exact Or.inr ⟨before, data, .error e, [], by simp, h, by simp, fun _ => rfl⟩
      | ok taken =>
        obtain ⟨hquiet, hend⟩ := settled_cases hsettled
        have hidentified : Identified (before ++
            ([⟨.getVMInfo none, .ok data⟩, ⟨.vmUpdated data, .ok ()⟩] ++ settled)) :=
          ⟨before, data, settled, by simp, h, fun entry hentry => (hquiet entry hentry).2⟩
        rcases hend with rfl | rfl
        · exact Or.inr hidentified.introduces
        · exact hidentified
  | true =>
    have hbeat : (∀ entry ∈ asked, isBeat entry = true) ∧
        ∃ fails', Runs (settle 5 VmUpdaterCall.vmUpdaterStopped .tick true fails') settled y := by
      rcases runs_poll_known.mp hasked with ⟨e, rfl, rfl⟩ | ⟨vmid, rfl, rfl⟩
      · exact ⟨by simp [isBeat], _, hsettled⟩
      · exact ⟨by simp [isBeat], _, hsettled⟩
    obtain ⟨hasked, fails', hsettled⟩ := hbeat
    obtain ⟨hquiet, hend⟩ := settled_cases hsettled
    have hidentified : Identified (before ++ (asked ++ settled)) := by
      apply Identified.append h
      exact List.forall_mem_append.mpr ⟨hasked, fun entry hentry => (hquiet entry hentry).2⟩
    rcases hend with rfl | rfl
    · exact Or.inr hidentified.introduces
    · exact hidentified

/-- Over any rounds of the task, whatever the VM actor and the scheduler answer: the
actor is given up exactly when it has failed six times in a row, and nothing follows;
the task ends then or when the scheduler does not take the identity of the VM, which is
passed on once, from the first answer, before any heartbeat. -/
theorem vm_updater_watches (run : List (List Entry × Option (Bool × Fin (2 ^ 8))))
    (h : Transition.IsRun (Round vmUpdaterTask) (some start) run) :
    let trace := callsOf run
    ((∃ entry ∈ trace, entry.1 = .vmUpdaterStopped) ↔
        List.replicate 6 false <:+: trace.filterMap outcome) ∧
      (∀ before entry after, trace = before ++ entry :: after → entry.1 = .vmUpdaterStopped →
        after = [] ∧ List.replicate 6 false <:+ before.filterMap outcome) ∧
      (Transition.final (some start) run = none ↔
        (∃ entry ∈ trace, entry.1 = .vmUpdaterStopped) ∨ ∃ entry ∈ trace, lost entry = true) ∧
      ((∀ entry ∈ trace, isAnonymous entry = true) ∨ Introduces trace) := by
  have hwatch := watch_run (by decide) observed h
  refine ⟨hwatch.stopped_iff, fun before entry after => hwatch.stopped_last, hwatch.ended_iff, ?_⟩
  have hphase : Phase ([] ++ callsOf run) (Transition.final (some start) run) := by
    refine round_invariant ?_ (by simp [Phase, start]) h
    intro before x trace y hx hround
    exact phase_round hx hround
  rw [List.nil_append] at hphase
  generalize Transition.final (some start) run = y at hphase
  rcases y with _ | ⟨_ | _, fails⟩
  · exact hphase
  · exact Or.inl hphase
  · exact Or.inr (Identified.introduces hphase)

/-- How an actor answers a round. -/
def answering (info : Except String GetVMInfoReply) (heartbeat : Except String Ulid) :
    (c : VmUpdaterCall) → c.Reply
  | .getVMInfo _ => info
  | .getVMHeartbeat => heartbeat
  | .vmUpdated _ => .ok ()
  | .vmUpdaterStopped => .ok ()
  | .tick => ()

/-- An actor that answers twice and is then gone. -/
def goneRun : List (List Entry × Option (Bool × Fin (2 ^ 8))) :=
  playRounds vmUpdaterTask start
    (answering (.error "timeout") (.error "timeout") :: answering (.ok ⟨7, none⟩) (.ok 7) ::
      answering (.ok ⟨7, none⟩) (.ok 7) ::
      List.replicate 6 (answering (.error "timeout") (.error "timeout")))

theorem vm_updater_watches_gone :
    (∃ entry ∈ callsOf goneRun, entry.1 = .vmUpdaterStopped) ∧
      Transition.final (some start) goneRun = none := by
  have hwatch := vm_updater_watches goneRun (isRun_playRounds vmUpdaterTask start _)
  have hstopped := hwatch.1.mpr (by decide)
  exact ⟨hstopped, hwatch.2.2.1.mpr (Or.inl hstopped)⟩

end VmTask

namespace AgentTask

/-- The next request and the failures in a row. -/
abbrev Locals := GetAgentStatus × Fin (2 ^ 8)

def getAgentStatus (request : GetAgentStatus) : AgentTask (Except String Answer) :=
  ask (AgentUpdaterCall.getAgentStatus request)
def agentUpdated (answer : Answer) : AgentTask (Except String Unit) :=
  ask (AgentUpdaterCall.agentUpdated answer)

/-- One request of the task, from its `status_revision` and `initial_status`. -/
def poll (request : GetAgentStatus) : AgentTask (Polled GetAgentStatus) :=
  (getAgentStatus request).bind fun
    | .ok answer =>
      (agentUpdated answer).bind fun sent => .done (ofSent ⟨answer.1.revision, false⟩ sent)
    | .error _ => .done .missed

def agentUpdaterTask : Locals → AgentTask (Option Locals) :=
  pollRound 5 .agentUpdaterStopped .tick poll

/-- Before its first round. -/
def start : Locals := (⟨0, true⟩, 0)

end AgentTask

end Odorobo
