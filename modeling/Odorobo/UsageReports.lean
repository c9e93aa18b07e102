import Odorobo.AgentAccounting
import Odorobo.UpdateChain

/-! The usage an agent reports and the usage the scheduler shows. The scheduler
takes a revision it already has for news it already has, so the counters may
change only together with the revision. One move of the agent breaks this: a
migration received for a VM it already holds replaces the entry, which is no
membership change. -/

namespace Odorobo

/-- Used vCPUs and memory, as an update carries them. -/
def AgentStatusUpdate.usage : AgentStatusUpdate → U32 × U64
  | full _ status => (status.usedVcpus, status.usedRam)
  | delta _ _ _ usedVcpus usedRam => (usedVcpus, usedRam)

/-- A membership revision and the usage seen with it. -/
abbrev Reading := U64 × (U32 × U64)

def AgentStatusUpdate.reading (update : AgentStatusUpdate) : Reading :=
  (update.revision, update.usage)

def CachedAgentActor.reading (cached : CachedAgentActor) : Reading :=
  (cached.statusRevision, (cached.data.usedVcpus, cached.data.usedRam))

/-- A newer revision, or the same reading. -/
def Reading.Later (r r' : Reading) : Prop := r.1 < r'.1 ∨ r = r'

theorem Reading.Later.refl (r : Reading) : r.Later r := Or.inr rfl

theorem Reading.Later.trans {r r' r'' : Reading} (h : r.Later r') (h' : r'.Later r'') : r.Later r'' := by
  obtain hlt | rfl := h
  · obtain hlt' | rfl := h'
    · exact Or.inl (lt_trans hlt hlt')
    · exact Or.inl hlt
  · exact h'

namespace AgentActor

def reading (agent : AgentActor) : Reading :=
  (agent.membershipRevision, (agent.reportedVcpus, agent.usedMemoryBytes))

theorem reading_getAgentStatus (agent : AgentActor) (msg : GetAgentStatus) :
    (agent.getAgentStatus msg).reading = agent.reading := by
  unfold getAgentStatus
  split <;> rfl

/-- The revision can still be counted up. -/
def CanCount (agent : AgentActor) : Prop := agent.membershipRevision.val < 2 ^ 64 - 1

/-- Replacing the entry leaves the usage reported as it is. -/
def ReplacesEvenly (agent : AgentActor) (previous cache : VMCacheData) : Prop :=
  Saturating.add (Saturating.add (Saturating.sub agent.usedVcpus previous.vcpus) cache.vcpus)
      agent.config.getReservedVcpus = agent.reportedVcpus ∧
    Saturating.add (Saturating.sub agent.usedMemoryBytes previous.memoryBytes) cache.memoryBytes =
      agent.usedMemoryBytes

/-- A VM that comes or goes is counted, and a receive that succeeds for a VM
already held replaces its entry evenly. -/
def CountsChanges (agent : AgentActor) : Message → Prop
  | .createVM msg _ => agent.vms.get msg.vmid = none → agent.CanCount
  | .migrateVMReceive msg spawned asked =>
    if (receiveReply asked).error.isSome then agent.CanCount
    else (agent.vms.get msg.vmid = none → agent.CanCount) ∧
      ∀ previous ∈ agent.vms.get msg.vmid,
        agent.ReplacesEvenly previous (cacheData spawned msg.config)
  | .deleteVM vmid => agent.vms.get vmid ≠ none → agent.CanCount
  | .linkDied id => (∃ e ∈ agent.vms.toList, e.2.actorRef.id = id) → agent.CanCount
  | .query => True

instance (agent : AgentActor) : Decidable agent.CanCount := inferInstanceAs (Decidable (_ < _))

instance (agent : AgentActor) (previous cache : VMCacheData) :
    Decidable (agent.ReplacesEvenly previous cache) := inferInstanceAs (Decidable (_ ∧ _))

instance decidableCountsChanges (agent : AgentActor) :
    (message : Message) → Decidable (agent.CountsChanges message)
  | .createVM msg _ =>
    inferInstanceAs (Decidable (agent.vms.get msg.vmid = none → agent.CanCount))
  | .migrateVMReceive msg spawned asked =>
    inferInstanceAs (Decidable (if (receiveReply asked).error.isSome then agent.CanCount
      else (agent.vms.get msg.vmid = none → agent.CanCount) ∧
        ∀ previous ∈ agent.vms.get msg.vmid,
          agent.ReplacesEvenly previous (cacheData spawned msg.config)))
  | .deleteVM vmid => inferInstanceAs (Decidable (agent.vms.get vmid ≠ none → agent.CanCount))
  | .linkDied id =>
    inferInstanceAs (Decidable ((∃ e ∈ agent.vms.toList, e.2.actorRef.id = id) → agent.CanCount))
  | .query => inferInstanceAs (Decidable True)

theorem revision_insertVm (agent : AgentActor) (vmid : Ulid) (cache : VMCacheData) :
    (agent.insertVm vmid cache).membershipRevision = (agent.vms.get vmid).elim
      (Saturating.add agent.membershipRevision 1) fun _ => agent.membershipRevision := by
  unfold insertVm
  cases agent.vms.get vmid <;> rfl

theorem revision_removeVm (agent : AgentActor) (vmid : Ulid) :
    (agent.removeVm vmid).2.membershipRevision = (agent.vms.get vmid).elim
      agent.membershipRevision fun _ => Saturating.add agent.membershipRevision 1 := by
  unfold removeVm
  cases agent.vms.get vmid <;> rfl

theorem val_countUp (r : U64) : (Saturating.add r 1).val = min (r.val + 1) (2 ^ 64 - 1) := rfl

theorem CanCount.lt {agent : AgentActor} (h : agent.CanCount) :
    agent.membershipRevision < Saturating.add agent.membershipRevision 1 := by
  rw [Fin.lt_def, val_countUp]
  unfold CanCount at h
  omega

theorem revision_le_removeVm (agent : AgentActor) (vmid : Ulid) :
    agent.membershipRevision ≤ (agent.removeVm vmid).2.membershipRevision := by
  have hle : agent.membershipRevision ≤ Saturating.add agent.membershipRevision 1 := by
    rw [Fin.le_def, val_countUp]
    omega
  rw [revision_removeVm]
  cases agent.vms.get vmid with
  | none => exact le_rfl
  | some previous => exact hle

theorem revision_le_insertVm (agent : AgentActor) (vmid : Ulid) (cache : VMCacheData) :
    agent.membershipRevision ≤ (agent.insertVm vmid cache).membershipRevision := by
  have hle : agent.membershipRevision ≤ Saturating.add agent.membershipRevision 1 := by
    rw [Fin.le_def, val_countUp]
    omega
  rw [revision_insertVm]
  cases agent.vms.get vmid with
  | none => exact hle
  | some previous => exact le_rfl

theorem revision_le_removeAll (agent : AgentActor) (vmids : List Ulid) :
    agent.membershipRevision ≤ (agent.removeAll vmids).membershipRevision :=
  removeAll_rule (P := fun other => agent.membershipRevision ≤ other.membershipRevision)
    (fun other vmid h => h.trans (revision_le_removeVm other vmid)) vmids agent le_rfl

theorem later_insertVm {agent : AgentActor} (h : agent.CanCount) {vmid : Ulid}
    (hunknown : agent.vms.get vmid = none) (cache : VMCacheData) :
    agent.reading.Later (agent.insertVm vmid cache).reading := by
  left
  change agent.membershipRevision < (agent.insertVm vmid cache).membershipRevision
  rw [revision_insertVm, hunknown]
  exact h.lt

theorem later_removeVm {agent : AgentActor} {vmid : Ulid}
    (h : agent.vms.get vmid ≠ none → agent.CanCount) :
    agent.reading.Later (agent.removeVm vmid).2.reading := by
  cases hget : agent.vms.get vmid with
  | none =>
    rw [removeVm_of_unknown hget]
    exact Reading.Later.refl _
  | some previous =>
    left
    change agent.membershipRevision < (agent.removeVm vmid).2.membershipRevision
    rw [revision_removeVm, hget]
    exact (h (by simp [hget])).lt

/-- The first removal that finds its VM counts up, and the others do not undo it. -/
theorem later_removeAll {agent : AgentActor} {vmids : List Ulid} (h : vmids ≠ [] → agent.CanCount) :
    agent.reading.Later (agent.removeAll vmids).reading := by
  induction vmids with
  | nil => exact Reading.Later.refl _
  | cons vmid vmids ih =>
    cases hget : agent.vms.get vmid with
    | none =>
      rw [removeAll, List.foldl_cons, removeVm_of_unknown hget]
      exact ih fun _ => h (List.cons_ne_nil vmid vmids)
    | some previous =>
      left
      have hcounted : agent.membershipRevision < (agent.removeVm vmid).2.membershipRevision := by
        rw [revision_removeVm, hget]
        exact (h (List.cons_ne_nil vmid vmids)).lt
      exact lt_of_lt_of_le hcounted (revision_le_removeAll (agent.removeVm vmid).2 vmids)

theorem reading_replaced {agent : AgentActor} {vmid : Ulid} {previous cache : VMCacheData}
    (hget : agent.vms.get vmid = some previous) (h : agent.ReplacesEvenly previous cache) :
    (agent.insertVm vmid cache).reading = agent.reading := by
  unfold reading
  rw [← h.1, ← h.2, revision_insertVm, hget, reportedVcpus, insertVm, hget]
  rfl

theorem later_handle {agent : AgentActor} {message : Message} (h : agent.CountsChanges message) :
    agent.reading.Later (agent.handle message).reading := by
  cases message with
  | createVM msg spawned =>
    rw [handle, createVM]
    cases hget : agent.vms.get msg.vmid with
    | some existing => exact Reading.Later.refl _
    | none => exact later_insertVm (h hget) hget _
  | migrateVMReceive msg spawned asked =>
    rw [handle, migrateVMReceive_eq]
    rw [CountsChanges] at h
    cases hreply : (receiveReply asked).error.isSome with
    | true =>
      have hcount : agent.CanCount := by simpa [hreply] using h
      -- The removal of the inserted entry counts up, whatever the insertion did.
      left
      have hinserted := revision_le_insertVm agent msg.vmid (cacheData spawned msg.config)
      have hfound := get_insertVm agent msg.vmid (cacheData spawned msg.config)
      rw [if_pos rfl]
      change agent.membershipRevision < AgentActor.membershipRevision _
      rw [revision_removeVm, hfound, Option.elim_some, Fin.lt_def, val_countUp]
      rw [Fin.le_def] at hinserted
      unfold CanCount at hcount
      omega
    | false =>
      rw [hreply, if_neg (by simp)] at h
      rw [if_neg (by simp)]
      cases hget : agent.vms.get msg.vmid with
      | none => exact later_insertVm (h.1 hget) hget _
      | some previous =>
        rw [reading_replaced hget (h.2 previous hget)]
        exact Reading.Later.refl _
  | deleteVM vmid => exact later_removeVm h
  | linkDied id =>
    apply later_removeAll
    simpa [CountsChanges] using h
  | query => exact Reading.Later.refl _

end AgentActor

namespace Cluster

open SchedulerActor

/-! The system with whole handlers of the agent and a single updater. -/

inductive UsageMove where
  | agent (action : AgentActor.Action)
  | system (move : Move)

/-- The agent handles a message as one move. The log of its changes is not looked
at here. A single updater is ever started. -/
def UsageStep (agentId : ActorId) (x : Cluster) : UsageMove → Cluster → Prop
  | .agent action, y => AgentActor.Step x.agent action y.agent ∧
      y = { x with agent := y.agent, changes := y.changes }
  | .system move, y => Step agentId x move y ∧ (∀ op, move ≠ .perform op) ∧ y.tasks ≤ 1

/-- Each message is handled by the agent in a state that allows it. -/
def Counted (x : Cluster) : UsageMove → Prop
  | .agent (.handle message) => x.agent.CountsChanges message
  | _ => True

instance decidableCounted (x : Cluster) : (move : UsageMove) → Decidable (Counted x move)
  | .agent (.handle message) => AgentActor.decidableCountsChanges x.agent message
  | .agent .rehash => inferInstanceAs (Decidable True)
  | .system _ => inferInstanceAs (Decidable True)

/-- An update that is handled while the agent is cached shows in the cache. -/
def Shows (agentId : ActorId) (x : Cluster) (move : UsageMove) (y : Cluster) : Prop :=
  ∀ position now letter answer cached, move = .system (.deliver position now) →
    x.mailbox[position]? = some letter → letter.notice = .updated answer →
    x.scheduler.agentDataCache.get agentId = some cached →
      ∃ shown, y.scheduler.agentDataCache.get agentId = some shown ∧
        (shown.data.usedVcpus, shown.data.usedRam) = answer.1.usage

def Letter.reading (letter : Letter) : Option Reading :=
  match letter.notice with
  | .updated answer => some answer.1.reading
  | .stopped => none

/-- Every reading on its way from the agent to the cache, oldest first. -/
def readings (agentId : ActorId) (x : Cluster) : List Reading :=
  ((x.scheduler.agentDataCache.get agentId).map CachedAgentActor.reading).toList ++
    (x.mailbox.filterMap Letter.reading ++
      ((x.updater.bind Updater.awaiting).map fun answer => answer.1.reading).toList)

structure InLine (agentId : ActorId) (x : Cluster) : Prop where
  letters : ∀ letter ∈ x.mailbox, letter.sender = ⟨0⟩
  updater : ∀ updater, x.updater = some updater → updater.task = ⟨0⟩
  ordered : (readings agentId x ++ [x.agent.reading]).Pairwise Reading.Later

section InLine

variable {agentId : ActorId} {x y : Cluster}

/-- Readings may be lost on the way. -/
theorem InLine.shrink (h : InLine agentId x) (hagent : y.agent = x.agent)
    (hletters : ∀ letter ∈ y.mailbox, letter.sender = ⟨0⟩)
    (hupdater : ∀ updater, y.updater = some updater → updater.task = ⟨0⟩)
    (hreadings : (readings agentId y).Sublist (readings agentId x)) : InLine agentId y where
  letters := hletters
  updater := hupdater
  ordered := by
    rw [hagent]
    exact List.Pairwise.sublist (hreadings.append_right _) h.ordered

theorem toList_sublist {α β : Type} {a b : Option α} (f : α → β) (h : b = a ∨ b = none) :
    (b.map f).toList.Sublist (a.map f).toList := by
  obtain rfl | rfl := h
  · exact List.Sublist.refl _
  · exact List.nil_sublist _

theorem awaiting_handled (x : Cluster) (agentId : ActorId) (event : Event) :
    (x.handled agentId event).updater.bind Updater.awaiting = x.updater.bind Updater.awaiting ∨
      (x.handled agentId event).updater.bind Updater.awaiting = none := by
  change (Option.filter _ x.updater).bind _ = _ ∨ (Option.filter _ x.updater).bind _ = _
  cases x.updater with
  | none => exact Or.inl rfl
  | some updater =>
    by_cases hkept : (x.scheduler.handle event).agentKeepaliveTasks.get agentId = some updater.task
    · left
      simp [Option.filter, hkept]
    · right
      simp [Option.filter, hkept]

theorem InLine.updater_handled (h : InLine agentId x) (event : Event) :
    ∀ updater, (x.handled agentId event).updater = some updater → updater.task = ⟨0⟩ :=
  fun updater hupdater => h.updater updater (Option.mem_filter_iff.mp hupdater).1

/-- The scheduler handles an event that is no update of the agent. -/
theorem InLine.handled (h : InLine agentId x) {event : Event}
    (hother : ∀ msg now, event = .agentUpdated msg now → msg.actorId ≠ agentId) :
    InLine agentId (x.handled agentId event) := by
  have hcache := get_kept_or_dropped (handle_outcome x.scheduler event) hother
  refine InLine.shrink h rfl h.letters (h.updater_handled event) ?_
  have hwaiting := toList_sublist (fun answer : Answer => answer.1.reading)
    (awaiting_handled x agentId event)
  exact (toList_sublist _ hcache).append ((List.Sublist.refl _).append hwaiting)

/-- With a single sender, letters arrive in the order of the mailbox. -/
theorem InLine.first (h : InLine agentId x) {position : Nat} {letter : Letter}
    (hletter : x.mailbox[position]? = some letter) (hnext : isNext x.mailbox position letter = true) :
    x.mailbox = letter :: x.mailbox.eraseIdx position := by
  have hsender := h.letters
  cases hmail : x.mailbox with
  | nil => simp [hmail] at hletter
  | cons first rest =>
    rw [hmail] at hletter hnext hsender
    cases position with
    | zero =>
      rw [List.getElem?_cons_zero] at hletter
      rw [Option.some.inj hletter]
      rfl
    | succ position =>
      have hmem : letter ∈ first :: rest := List.mem_of_getElem? hletter
      have hfirst : first.sender ≠ letter.sender := by
        rw [isNext, List.take_succ_cons, List.all_cons, Bool.and_eq_true] at hnext
        simpa using hnext.1
      exact absurd ((hsender first List.mem_cons_self).trans (hsender letter hmem).symm) hfirst

/-- An update is dropped, or its reading is the cached one. -/
theorem reading_accept (cached : Option CachedAgentActor) (msg : AgentUpdated) :
    accept cached msg = cached ∨
      (accept cached msg).map CachedAgentActor.reading = some msg.update.reading := by
  unfold accept
  cases cached with
  | none =>
    cases hupdate : msg.update with
    | full revision status => exact Or.inr rfl
    | delta => exact Or.inl rfl
  | some cached =>
    dsimp only
    split
    · exact Or.inl rfl
    · right
      cases msg.update <;> rfl

theorem InLine.delivered (h : InLine agentId x) {position : Nat} {now : Instant} {letter : Letter}
    (hletter : x.mailbox[position]? = some letter) (hnext : isNext x.mailbox position letter = true) :
    InLine agentId ((x.taken position letter).handled agentId (letter.event agentId now)) := by
  have hfirst := h.first hletter hnext
  have hletters : ∀ other ∈ x.mailbox.eraseIdx position, other.sender = ⟨0⟩ := by
    intro other hother
    apply h.letters
    rw [hfirst]
    exact List.mem_cons_of_mem letter hother
  have htaken : InLine agentId (x.taken position letter) := by
    refine InLine.shrink h rfl hletters h.updater ?_
    exact (List.Sublist.refl _).append
      (((List.eraseIdx_sublist _ _).filterMap _).append (List.Sublist.refl _))
  cases hnotice : letter.notice with
  | stopped =>
    apply htaken.handled
    simp [Letter.event, hnotice]
  | updated answer =>
    -- The letter was between the cached reading and the rest of the mailbox.
    refine InLine.shrink h rfl hletters (htaken.updater_handled _) ?_
    have hwaiting := toList_sublist (fun answer : Answer => answer.1.reading)
      (awaiting_handled (x.taken position letter) agentId (letter.event agentId now))
    have hmail : x.mailbox.filterMap Letter.reading =
        answer.1.reading :: (x.mailbox.eraseIdx position).filterMap Letter.reading := by
      conv_lhs => rw [hfirst]
      simp [Letter.reading, hnotice]
    have hcache := get_agentUpdated x.scheduler
      ⟨agentId, ⟨agentId⟩, answer.1, agentRef_id agentId, answer.2⟩ now
    have hevent : (x.taken position letter).handled agentId (letter.event agentId now) =
        (x.taken position letter).handled agentId
          (.agentUpdated ⟨agentId, ⟨agentId⟩, answer.1, agentRef_id agentId, answer.2⟩ now) := by
      simp only [Letter.event, hnotice]
    rw [hevent] at hwaiting ⊢
    unfold readings
    rw [hmail]
    change List.Sublist ((Option.map _ ((x.scheduler.agentUpdated _ now).agentDataCache.get
      agentId)).toList ++ _) _
    rw [hcache]
    cases reading_accept (x.scheduler.agentDataCache.get agentId)
        ⟨agentId, ⟨agentId⟩, answer.1, agentRef_id agentId, answer.2⟩ with
    | inl hdropped =>
      rw [hdropped]
      exact (List.Sublist.refl _).append (((List.Sublist.refl _).append hwaiting).cons _)
    | inr htaken =>
      rw [htaken]
      apply List.Sublist.trans _ (List.sublist_append_right _ _)
      exact ((List.Sublist.refl _).append hwaiting).cons_cons _

theorem pairwise_repeat_last {α : Type} {r : α → α → Prop} (refl : ∀ a, r a a) {l : List α} {a : α}
    (h : (l ++ [a]).Pairwise r) : (l ++ [a] ++ [a]).Pairwise r := by
  have hlast : ∀ b ∈ l, r b a := fun b hb =>
    (List.pairwise_append.mp h).2.2 b hb a (List.mem_singleton.mpr rfl)
  rw [List.pairwise_append]
  refine ⟨h, List.pairwise_singleton r a, ?_⟩
  intro b hb c hc
  rw [List.mem_singleton.mp hc]
  cases List.mem_append.mp hb with
  | inl hold => exact hlast b hold
  | inr hsame =>
    rw [List.mem_singleton.mp hsame]
    exact refl a

theorem InLine.answered (h : InLine agentId x) {updater : Updater} (hupdater : x.updater = some updater) :
    InLine agentId
      { x with updater := some { updater with awaiting := some (Cluster.answer x.agent updater) } } where
  letters := h.letters
  updater other hother := by
    rw [← Option.some.inj hother]
    exact h.updater updater hupdater
  ordered := by
    have hsent : (((x.scheduler.agentDataCache.get agentId).map CachedAgentActor.reading).toList ++
        x.mailbox.filterMap Letter.reading ++ [x.agent.reading]).Pairwise Reading.Later := by
      refine List.Pairwise.sublist ?_ h.ordered
      exact ((List.Sublist.refl _).append (List.sublist_append_left _ _)).append_right _
    have hanswer : (Cluster.answer x.agent updater).1.reading = x.agent.reading :=
      x.agent.reading_getAgentStatus updater.request
    have htwice := pairwise_repeat_last Reading.Later.refl hsent
    simpa [readings, hanswer] using htwice

theorem InLine.forwarded (h : InLine agentId x) {updater : Updater} {answer : Answer}
    (hupdater : x.updater = some updater) (hanswer : updater.awaiting = some answer) :
    InLine agentId
      { x with
        updater := some (updater.forwarded answer)
        mailbox := x.mailbox ++ [⟨updater.task, .updated answer⟩] } := by
  have htask := h.updater updater hupdater
  refine InLine.shrink h rfl ?_ ?_ ?_
  · intro letter hletter
    cases List.mem_append.mp hletter with
    | inl hold => exact h.letters letter hold
    | inr hnew =>
      rw [List.mem_singleton.mp hnew]
      exact htask
  · intro other hother
    rw [← Option.some.inj hother]
    exact htask
  · simp [readings, hupdater, hanswer, Updater.forwarded, Letter.reading]

theorem InLine.pollFailed (h : InLine agentId x) {updater : Updater} (hupdater : x.updater = some updater) :
    InLine agentId (x.pollFailed updater) := by
  have htask := h.updater updater hupdater
  unfold Cluster.pollFailed
  dsimp only
  split
  · refine InLine.shrink h rfl ?_ (by simp) ?_
    · intro letter hletter
      cases List.mem_append.mp hletter with
      | inl hold => exact h.letters letter hold
      | inr hnew =>
        rw [List.mem_singleton.mp hnew]
        exact htask
    · simp [readings, Letter.reading]
  · refine InLine.shrink h rfl h.letters ?_ ?_
    · intro other hother
      rw [← Option.some.inj hother]
      exact htask
    · simp [readings]

theorem InLine.discovered (h : InLine agentId x) (linked : Bool)
    (hsingle : (x.discovered agentId linked).tasks ≤ 1) :
    InLine agentId (x.discovered agentId linked) := by
  have hhandled : InLine agentId (x.handled agentId
      (.agentActorDiscovered ⟨agentId⟩ ⟨x.updater.isNone, linked, ⟨x.tasks⟩⟩)) := by
    apply h.handled
    simp
  unfold Cluster.discovered at hsingle ⊢
  dsimp only at hsingle ⊢
  split at hsingle
  · next hrunning =>
    rw [if_pos hrunning]
    exact hhandled
  · next hstarted =>
    have hfirst : x.tasks = 0 := by
      dsimp only at hsingle
      omega
    rw [if_neg hstarted]
    refine InLine.shrink hhandled rfl h.letters ?_ ?_
    · intro other hother
      rw [← Option.some.inj hother, hfirst]
      rfl
    · exact (List.Sublist.refl _).append
        ((List.Sublist.refl _).append (List.nil_sublist _))

theorem InLine.moved {move : Move} (h : InLine agentId x) (hmoved : Moved agentId x move y)
    (hperform : ∀ op, move ≠ .perform op) (hsingle : y.tasks ≤ 1) : InLine agentId y := by
  cases hmoved with
  | performed op => exact absurd rfl (hperform op)
  | answered updater hupdater => exact h.answered hupdater
  | forwarded updater answer hupdater hanswer => exact h.forwarded hupdater hanswer
  | failed updater hupdater => exact h.pollFailed hupdater
  | delivered position now letter hletter hnext => exact h.delivered hletter hnext
  | discovered linked => exact h.discovered linked hsingle
  | handled event hpolling =>
    apply h.handled
    rintro msg now rfl heq
    simp [isPolling, heq] at hpolling

theorem InLine.agent (h : InLine agentId x) {agent : AgentActor} (log : List (Ulid × Bool))
    (hlater : x.agent.reading.Later agent.reading) :
    InLine agentId { x with agent := agent, changes := log } where
  letters := h.letters
  updater := h.updater
  ordered := by
    have hordered := h.ordered
    rw [List.pairwise_append] at hordered ⊢
    refine ⟨hordered.1, List.pairwise_singleton _ _, ?_⟩
    intro r hr r' hr'
    rw [List.mem_singleton.mp hr']
    exact (hordered.2.2 r hr _ (List.mem_singleton.mpr rfl)).trans hlater

theorem InLine.step (h : InLine agentId x) {move : UsageMove} (hcounted : Counted x move)
    (hstep : UsageStep agentId x move y) : InLine agentId y := by
  cases move with
  | agent action =>
    obtain ⟨hagent, heq⟩ := hstep
    rw [heq]
    apply h.agent
    cases action with
    | handle message =>
      rw [show y.agent = x.agent.handle message from hagent]
      exact AgentActor.later_handle hcounted
    | rehash =>
      have hr : AgentActor.Rehash x.agent y.agent := hagent
      rw [hr.same]
      exact Reading.Later.refl _
  | system move =>
    obtain ⟨hstep, hperform, hsingle⟩ := hstep
    cases hstep with
    | inl hnext => exact h.moved (moved_of_next hnext) hperform hsingle
    | inr hrehash =>
      obtain ⟨_, hr, heq⟩ := hrehash
      rw [heq]
      refine InLine.shrink h rfl h.letters h.updater ?_
      unfold readings
      dsimp only
      rw [hr.agentDataCache]

theorem usage_applyStatusUpdate (data : AgentStatus) (update : AgentStatusUpdate) :
    ((applyStatusUpdate data update).1.usedVcpus, (applyStatusUpdate data update).1.usedRam) =
      update.usage := by
  cases update <;> rfl

/-- A letter is not older than the cached status, and an equally old one says the
same. -/
theorem InLine.shows (h : InLine agentId x) {move : UsageMove}
    (hstep : UsageStep agentId x move y) : Shows agentId x move y := by
  rintro position now letter answer cached rfl hletter hnotice hcached
  obtain ⟨hstep | hrehash, _, _⟩ := hstep
  · have hmoved := moved_of_next hstep
    cases hmoved with
    | delivered _ _ letter' hletter' hnext =>
      obtain rfl : letter = letter' := Option.some.inj (hletter.symm.trans hletter')
      have hlater : cached.reading.Later answer.1.reading := by
        have hordered := h.ordered
        rw [readings, hcached, h.first hletter hnext] at hordered
        simp only [Option.map_some, Option.toList_some, List.filterMap_cons, Letter.reading,
          hnotice, List.cons_append, List.pairwise_cons] at hordered
        exact hordered.1 _ (by simp)
      have hcache := get_agentUpdated x.scheduler
        ⟨agentId, ⟨agentId⟩, answer.1, agentRef_id agentId, answer.2⟩ now
      rw [hcached, accept] at hcache
      have hevent : ((x.taken position letter).handled agentId
          (letter.event agentId now)).scheduler = x.scheduler.agentUpdated
            ⟨agentId, ⟨agentId⟩, answer.1, agentRef_id agentId, answer.2⟩ now := by
        simp only [Letter.event, hnotice]
        rfl
      rw [hevent]
      split at hcache
      · next hstale =>
        refine ⟨cached, hcache, ?_⟩
        obtain hnewer | hsame := hlater
        · exact absurd hnewer (not_lt.mpr hstale)
        · exact congrArg Prod.snd hsame
      · refine ⟨_, hcache, ?_⟩
        exact usage_applyStatusUpdate cached.data answer.1
  · exact absurd hrehash.1 (by simp)

theorem inLine_onStart (agentId : ActorId) (config : Config) (host : AgentActor.Host) :
    InLine agentId (onStart config host) :=
  ⟨by simp [onStart], by simp [onStart], List.pairwise_singleton _ _⟩

end InLine

theorem usage_reports_never_lost (agentId : ActorId) (config : Config) (host : AgentActor.Host)
    (run : List (UsageMove × Cluster))
    (hrun : Transition.IsRun (UsageStep agentId) (onStart config host) run)
    (hcounted : Transition.AllSteps Counted (onStart config host) run) :
    Transition.IsRun (Shows agentId) (onStart config host) run :=
  Transition.isRun_of_invariant (fun _ _ _ h hc hstep => h.step hc hstep)
    (fun _ _ _ h _ hstep => h.shows hstep) _ run (inLine_onStart agentId config host) hrun hcounted

section Samples

/-- The moves that leave no choice. -/
def usageNext (agentId : ActorId) (x : Cluster) : UsageMove → Option Cluster
  | .agent (.handle message) => some { x with agent := x.agent.handle message }
  | .agent .rehash => none
  | .system (.perform _) => none
  | .system move => (x.next agentId move).filter fun y => y.tasks ≤ 1

theorem usageStep_of_next {agentId : ActorId} (x : Cluster) (move : UsageMove) (y : Cluster)
    (h : usageNext agentId x move = some y) : UsageStep agentId x move y := by
  have hsystem : ∀ move, (x.next agentId move).filter (fun y => y.tasks ≤ 1) = some y →
      Step agentId x move y ∧ y.tasks ≤ 1 := by
    intro move hnext
    rw [Option.filter_eq_some_iff] at hnext
    exact ⟨Or.inl hnext.1, by simpa using hnext.2⟩
  cases move with
  | agent action =>
    cases action with
    | handle message =>
      rw [← Option.some.inj h]
      exact ⟨rfl, rfl⟩
    | rehash => simp [usageNext] at h
  | system move =>
    cases move with
    | perform op => simp [usageNext] at h
    | _ =>
      simp only [usageNext] at h
      exact ⟨(hsystem _ h).1, by simp, (hsystem _ h).2⟩

def usageRun (moves : List UsageMove) : List (UsageMove × Cluster) :=
  Transition.play (usageNext agentOne) sampleCluster moves

theorem isRun_usageRun (moves : List UsageMove) :
    Transition.IsRun (UsageStep agentOne) sampleCluster (usageRun moves) :=
  Transition.isRun_play usageStep_of_next sampleCluster moves

/-- A migration of the VM comes in while the agent holds one of one vCPU, and
another poll is on its way to the scheduler. -/
def replacingMoves (vcpus : U32) : List UsageMove :=
  [.agent (.handle (AgentActor.createsSized 5 1 7)), .system (.discover true), .system .answer,
    .system .forward, .system (.deliver 0 0),
    .agent (.handle (.migrateVMReceive ⟨5, sizedManifest 5 vcpus 1⟩ ⟨⟨8, 1⟩⟩
      (.ok ⟨"tcp:[::]:7001", none⟩))),
    .system .answer, .system .forward]

/-- The scheduler when it takes the second report. -/
def reported (vcpus : U32) : Cluster := Transition.final sampleCluster (usageRun (replacingMoves vcpus))

def readByScheduler (vcpus : U32) : Cluster :=
  (usageNext agentOne (reported vcpus) (.system (.deliver 0 0))).getD (reported vcpus)

/-- The run up to the second report and its delivery. -/
def replacingRun (vcpus : U32) : List (UsageMove × Cluster) :=
  usageRun (replacingMoves vcpus) ++ [(.system (.deliver 0 0), readByScheduler vcpus)]

theorem isRun_replacingRun {vcpus : U32}
    (h : (usageNext agentOne (reported vcpus) (.system (.deliver 0 0))).isSome = true) :
    Transition.IsRun (UsageStep agentOne) sampleCluster (replacingRun vcpus) := by
  rw [replacingRun, Transition.isRun_append]
  refine ⟨isRun_usageRun _, usageStep_of_next _ _ _ ?_, trivial⟩
  obtain ⟨y, hy⟩ := Option.isSome_iff_exists.mp h
  rw [readByScheduler, hy]
  exact hy

end Samples

/-- A VM of the same size replaces the one held, and its report shows. -/
theorem usage_reports_never_lost_same_size :
    ((reported 1).mailbox.map Letter.reading = [some (1, (3, 1))]) ∧
      Transition.IsRun (Shows agentOne) sampleCluster (replacingRun 1) := by
  refine ⟨by decide +kernel, ?_⟩
  have hcounted : Transition.AllSteps Counted sampleCluster (replacingRun 1) := by decide +kernel
  exact usage_reports_never_lost agentOne ⟨none, none⟩ ⟨4, 4096, none⟩ (replacingRun 1)
    (isRun_replacingRun (by decide +kernel)) hcounted

/-- A migration of three vCPUs replaces a VM of one: the agent reports five with
the revision it had, and the scheduler still shows three. -/
theorem usage_report_lost :
    ∃ run, Transition.IsRun (UsageStep agentOne) sampleCluster run ∧
      ¬ Transition.IsRun (Shows agentOne) sampleCluster run := by
  refine ⟨replacingRun 3, isRun_replacingRun (by decide +kernel), ?_⟩
  rw [replacingRun, Transition.isRun_append]
  rintro ⟨_, hshows, _⟩
  have hreported : (reported 3).mailbox[0]?.bind Letter.reading = some (1, (5, 1)) := by
    decide +kernel
  have hcached : ((reported 3).scheduler.agentDataCache.get agentOne).isSome = true := by
    decide +kernel
  have hshown : ((readByScheduler 3).scheduler.agentDataCache.get agentOne).map
      CachedAgentActor.reading = some (1, (3, 1)) := by
    decide +kernel
  obtain ⟨cached, hcached⟩ := Option.isSome_iff_exists.mp hcached
  obtain ⟨letter, hletter, hreading⟩ := Option.bind_eq_some_iff.mp hreported
  cases hnotice : letter.notice with
  | stopped => simp [Letter.reading, hnotice] at hreading
  | updated answer =>
    obtain ⟨shown, hget, husage⟩ := hshows 0 0 letter answer cached rfl hletter hnotice hcached
    simp only [Letter.reading, hnotice, Option.some.injEq, AgentStatusUpdate.reading,
      Prod.mk.injEq] at hreading
    rw [hget, Option.map_some, CachedAgentActor.reading, husage, hreading.2] at hshown
    simp at hshown

end Cluster

end Odorobo
