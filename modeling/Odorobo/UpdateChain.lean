import Odorobo.Cluster

/-! Waiting updates as a chain. A delta says nothing about its base: it fits only
behind the update that the same task sent before it. A snapshot fits behind
anything that is not newer, so letters of earlier tasks may be left out of a
chain. -/

namespace Odorobo.Cluster

open SchedulerActor AgentActor

/-- The list of the VMs the agent held after `n` membership changes. -/
structure Mirrors (log : List (Ulid × Bool)) (n : Nat) (vms : List Ulid) : Prop where
  increasing : vms.Pairwise (· < ·)
  held : ∀ vmid, vmid ∈ vms ↔ vmid ∈ ChangeLog.heldAt log n

/-- The task and the revision of the last update that was read or sent. -/
abbrev Mark := Option (JoinHandle × Nat)

def Behind (mark : Mark) (n : Nat) : Prop := ∀ task m, mark = some (task, m) → m ≤ n

/-- An update of the task that may be applied at the mark. -/
structure Fits (log : List (Ulid × Bool)) (mark : Mark) (task : JoinHandle)
    (update : AgentStatusUpdate) : Prop where
  past : update.revision.val ≤ log.length
  later : Behind mark update.revision.val
  full : ∀ revision status, update = .full revision status → Mirrors log revision.val status.vms
  delta : ∀ revision added removed usedVcpus usedRam,
    update = .delta revision added removed usedVcpus usedRam →
    ∃ base, mark = some (task, base) ∧ ∀ vmid, vmid ∈ ChangeLog.heldAt log revision.val ↔
      vmid ∈ added ∨ (vmid ∈ ChangeLog.heldAt log base ∧ vmid ∉ removed)

/-- The letters take a reader from one mark to another. -/
def Chain (log : List (Ulid × Bool)) : Mark → List Letter → Mark → Prop
  | read, [], sent => read = sent
  | read, ⟨task, .updated answer⟩ :: rest, sent =>
    Fits log read task answer.1 ∧ Chain log (some (task, answer.1.revision.val)) rest sent
  | read, ⟨_, .stopped⟩ :: rest, sent => Chain log read rest sent

theorem Behind.trans {mark : Mark} {m n : Nat} (h : Behind mark m) (hmn : m ≤ n) :
    Behind mark n :=
  fun task k hmark => (h task k hmark).trans hmn

theorem behind_some {task : JoinHandle} {m n : Nat} :
    Behind (some (task, m)) n ↔ m ≤ n := by
  constructor
  · exact fun h => h task m rfl
  · intro h task' m' heq
    rw [← (Prod.mk.inj (Option.some.inj heq)).2]
    exact h

section Updates

variable {log : List (Ulid × Bool)}

theorem Mirrors.append {n : Nat} {vms : List Ulid} (h : Mirrors log n vms) (hn : n ≤ log.length)
    (changes : List (Ulid × Bool)) : Mirrors (log ++ changes) n vms where
  increasing := h.increasing
  held vmid := by
    rw [ChangeLog.heldAt_append changes hn]
    exact h.held vmid

theorem Fits.append {mark : Mark} {task : JoinHandle} {update : AgentStatusUpdate}
    (h : Fits log mark task update) (changes : List (Ulid × Bool)) :
    Fits (log ++ changes) mark task update where
  past := by
    have hpast := h.past
    rw [List.length_append]
    omega
  later := h.later
  full revision status hupdate := by
    have hpast := h.past
    rw [hupdate] at hpast
    exact (h.full revision status hupdate).append hpast changes
  delta revision added removed usedVcpus usedRam hupdate := by
    obtain ⟨base, hbase, hmem⟩ := h.delta revision added removed usedVcpus usedRam hupdate
    have hrevision : update.revision = revision := by
      rw [hupdate]
      rfl
    have hpast : revision.val ≤ log.length := hrevision ▸ h.past
    have hlater : base ≤ revision.val := hrevision ▸ h.later task base hbase
    refine ⟨base, hbase, fun vmid => ?_⟩
    rw [ChangeLog.heldAt_append changes hpast,
      ChangeLog.heldAt_append changes (hlater.trans hpast)]
    exact hmem vmid

/-- Behind an update of another task only a snapshot fits, and it fits behind
whatever came before that update. -/
theorem Fits.rebase {task other : JoinHandle} {n : Nat} {update : AgentStatusUpdate}
    (h : Fits log (some (other, n)) task update) (hne : task ≠ other) {mark : Mark}
    (hbehind : Behind mark n) : Fits log mark task update where
  past := h.past
  later := hbehind.trans (behind_some.mp h.later)
  full := h.full
  delta revision added removed usedVcpus usedRam hupdate := by
    obtain ⟨base, hbase, _⟩ := h.delta revision added removed usedVcpus usedRam hupdate
    exact absurd (Prod.mk.inj (Option.some.inj hbase)).1.symm hne

theorem Chain.append_log {read sent : Mark} {mailbox : List Letter}
    (h : Chain log read mailbox sent) (changes : List (Ulid × Bool)) :
    Chain (log ++ changes) read mailbox sent := by
  induction mailbox generalizing read with
  | nil => exact h
  | cons letter rest ih =>
    obtain ⟨sender, notice⟩ := letter
    cases notice with
    | updated answer => exact ⟨h.1.append changes, ih h.2⟩
    | stopped => exact ih h

theorem Chain.updated {read sent : Mark} {mailbox : List Letter}
    (h : Chain log read mailbox sent) {task : JoinHandle} {answer : Answer}
    (hfits : Fits log sent task answer.1) :
    Chain log read (mailbox ++ [⟨task, .updated answer⟩])
      (some (task, answer.1.revision.val)) := by
  induction mailbox generalizing read with
  | nil =>
    have hread : read = sent := h
    rw [hread]
    exact ⟨hfits, rfl⟩
  | cons letter rest ih =>
    obtain ⟨sender, notice⟩ := letter
    cases notice with
    | updated earlier => exact ⟨h.1, ih h.2⟩
    | stopped => exact ih h

theorem Chain.stopped {read sent : Mark} {mailbox : List Letter}
    (h : Chain log read mailbox sent) (task : JoinHandle) :
    Chain log read (mailbox ++ [⟨task, .stopped⟩]) sent := by
  induction mailbox generalizing read with
  | nil => exact h
  | cons letter rest ih =>
    obtain ⟨sender, notice⟩ := letter
    cases notice with
    | updated earlier => exact ⟨h.1, ih h.2⟩
    | stopped => exact ih h

/-- Nothing waiting is ahead of the agent. -/
theorem Chain.sent_behind {read sent : Mark} {mailbox : List Letter}
    (h : Chain log read mailbox sent) (hread : Behind read log.length) :
    Behind sent log.length := by
  induction mailbox generalizing read with
  | nil =>
    have heq : read = sent := h
    exact heq ▸ hread
  | cons letter rest ih =>
    obtain ⟨sender, notice⟩ := letter
    cases notice with
    | updated answer => exact ih h.2 (behind_some.mpr h.1.past)
    | stopped => exact ih h hread

/-- Letters of other tasks than the last read one do not need that update. The
mark at the end is the same, or there was no update among the letters. -/
theorem Chain.rebase {other : JoinHandle} {n : Nat} {sent : Mark} {letters : List Letter}
    (h : Chain log (some (other, n)) letters sent) (hne : ∀ letter ∈ letters, letter.sender ≠ other)
    {mark : Mark} (hbehind : Behind mark n) :
    ∃ sent', Chain log mark letters sent' ∧
      (sent' = sent ∨ (sent' = mark ∧ sent = some (other, n))) := by
  induction letters with
  | nil => exact ⟨mark, rfl, Or.inr ⟨rfl, Eq.symm h⟩⟩
  | cons letter rest ih =>
    obtain ⟨sender, notice⟩ := letter
    cases notice with
    | updated answer =>
      have hsender := hne _ List.mem_cons_self
      exact ⟨sent, ⟨h.1.rebase hsender hbehind, h.2⟩, Or.inl rfl⟩
    | stopped => exact ih h fun letter hmem => hne letter (List.mem_cons_of_mem _ hmem)

/-- Letters of earlier tasks may be left out. -/
theorem Chain.skip {read sent : Mark} {early rest : List Letter}
    (h : Chain log read (early ++ rest) sent)
    (hne : ∀ letter ∈ early, ∀ later ∈ rest, later.sender ≠ letter.sender) :
    ∃ sent', Chain log read rest sent' ∧ (sent' = sent ∨
      ∃ letter ∈ early, ∃ n, sent = some (letter.sender, n) ∧ Behind sent' n) := by
  induction early generalizing read with
  | nil => exact ⟨sent, h, Or.inl rfl⟩
  | cons letter early ih =>
    have hrest : ∀ other ∈ early, ∀ later ∈ rest, later.sender ≠ other.sender :=
      fun other hmem => hne other (List.mem_cons_of_mem _ hmem)
    obtain ⟨sender, notice⟩ := letter
    cases notice with
    | stopped =>
      obtain ⟨sent', hchain, hsent⟩ := ih h hrest
      refine ⟨sent', hchain, hsent.imp_right ?_⟩
      rintro ⟨other, hmem, hother⟩
      exact ⟨other, List.mem_cons_of_mem _ hmem, hother⟩
    | updated answer =>
      obtain ⟨middle, hchain, hmiddle⟩ := ih h.2 hrest
      obtain ⟨sent', hchain', hsent⟩ := hchain.rebase (hne _ List.mem_cons_self) h.1.later
      refine ⟨sent', hchain', ?_⟩
      cases hsent with
      | inl hsame =>
        rw [hsame]
        refine hmiddle.imp_right ?_
        rintro ⟨other, hmem, hother⟩
        exact ⟨other, List.mem_cons_of_mem _ hmem, hother⟩
      | inr hread =>
        obtain ⟨rfl, rfl⟩ := hread
        right
        cases hmiddle with
        | inl hlast => exact ⟨_, List.mem_cons_self, _, hlast.symm, h.1.later⟩
        | inr hlater =>
          obtain ⟨other, hmem, n, hsent, hbehind⟩ := hlater
          exact ⟨other, List.mem_cons_of_mem _ hmem, n, hsent,
            h.1.later.trans (behind_some.mp hbehind)⟩

/-- The answer to a poll fits behind what the updater has sent. -/
theorem fits_answer {agent : AgentActor} (h : Recorded log agent) (hfew : log.length < 2 ^ 64)
    {sent : Mark} (hsent : Behind sent log.length) {updater : Updater}
    (hpolled : updater.initialStatus = false →
      sent = some (updater.task, updater.statusRevision.val)) :
    Fits log sent updater.task (agent.getAgentStatus updater.request) := by
  have hrevision : (agent.getAgentStatus updater.request).revision.val = log.length := by
    rw [getAgentStatus_revision, h.val_revision hfew]
  refine ⟨hrevision.le, hsent.trans hrevision.ge, ?_, ?_⟩
  · intro revision status hupdate
    unfold getAgentStatus at hupdate
    split at hupdate
    · rw [AgentStatusUpdate.full.injEq] at hupdate
      obtain ⟨rfl, rfl⟩ := hupdate
      refine ⟨agent.pairwise_fullStatus, fun vmid => ?_⟩
      rw [mem_fullStatus, h.held, h.val_revision hfew, ChangeLog.heldAt_length]
    · simp at hupdate
  · intro revision added removed usedVcpus usedRam hupdate
    unfold getAgentStatus at hupdate
    split at hupdate
    · simp at hupdate
    · next hneeds =>
      rw [Bool.not_eq_true] at hneeds
      have hinitial : updater.initialStatus = false := by
        rw [needsFull, Bool.or_eq_false_iff, Bool.or_eq_false_iff] at hneeds
        exact hneeds.1.1
      rw [AgentStatusUpdate.delta.injEq] at hupdate
      obtain ⟨rfl, rfl, rfl, rfl, rfl⟩ := hupdate
      refine ⟨_, hpolled hinitial, fun vmid => ?_⟩
      rw [h.val_revision hfew, ChangeLog.heldAt_length]
      exact ChangeLog.mem_replay_of_summary (h.summarises hfew hneeds) vmid

end Updates

/-! The scheduler's side of an update. -/

/-- The cached status of the agent after an update. -/
def accept (cached : Option CachedAgentActor) (msg : AgentUpdated) : Option CachedAgentActor :=
  match cached with
  | none =>
    match msg.update with
    | .full revision status => some ⟨msg.actorRef, status, revision⟩
    | .delta .. => none
  | some cached =>
    if msg.update.revision ≤ cached.statusRevision then some cached
    else
      let applied := applyStatusUpdate cached.data msg.update
      some ⟨msg.actorRef, applied.1, applied.2⟩

theorem get_agentUpdated (s : SchedulerActor) (msg : AgentUpdated) (now : Instant) :
    (s.agentUpdated msg now).agentDataCache.get msg.actorId =
      accept (s.agentDataCache.get msg.actorId) msg := by
  unfold agentUpdated accept
  cases hget : s.agentDataCache.get msg.actorId with
  | none =>
    cases hupdate : msg.update with
    | full revision status => exact AHashMap.get_insert_self _ _ _
    | delta => exact hget
  | some cached =>
    dsimp only
    split
    · exact hget
    · cases hupdate : msg.update with
      | full revision status => exact AHashMap.get_insert_self _ _ _
      | delta revision added removed usedVcpus usedRam =>
        dsimp only
        unfold acceptDelta
        rw [hupdate]
        exact AHashMap.get_insert_self _ _ _

/-- Other events keep the cached status of the agent or drop it. -/
theorem get_kept_or_dropped {s t : SchedulerActor} {event : Event} (outcome : Outcome s event t)
    {agentId : ActorId} (hother : ∀ msg now, event = .agentUpdated msg now → msg.actorId ≠ agentId) :
    t.agentDataCache.get agentId = s.agentDataCache.get agentId ∨
      t.agentDataCache.get agentId = none := by
  cases agentDataCache_outcome outcome with
  | kept hsame => exact Or.inl (hsame ▸ rfl)
  | lost id herased =>
    rw [herased, AHashMap.get_erase]
    by_cases hid : agentId = id <;> simp [hid]
  | updated msg now cached hevent href hfull hinserted =>
    left
    rw [hinserted]
    exact AHashMap.get_insert_ne _ _ (hother msg now hevent).symm

/-- A reader whose list mirrors its revision still does after an update that
fits. An update that is not newer is dropped: it is of the same revision. -/
theorem mirrors_accept {log : List (Ulid × Bool)} {read : Mark} {task : JoinHandle}
    {msg : AgentUpdated} (hfits : Fits log read task msg.update)
    {before : Option CachedAgentActor}
    (hbefore : ∀ cached, before = some cached →
      (∃ last, read = some (last, cached.statusRevision.val)) ∧
        Mirrors log cached.statusRevision.val cached.data.vms)
    {cached : CachedAgentActor} (hcached : accept before msg = some cached) :
    msg.update.revision = cached.statusRevision ∧
      Mirrors log cached.statusRevision.val cached.data.vms := by
  cases before with
  | none =>
    cases hupdate : msg.update with
    | full revision status =>
      rw [accept, hupdate] at hcached
      obtain rfl := Option.some.inj hcached
      exact ⟨rfl, hfits.full revision status hupdate⟩
    | delta revision added removed usedVcpus usedRam =>
      rw [accept, hupdate] at hcached
      simp at hcached
  | some old =>
    obtain ⟨⟨last, hread⟩, hmirrors⟩ := hbefore old rfl
    rw [accept] at hcached
    by_cases hstale : msg.update.revision ≤ old.statusRevision
    · rw [if_pos hstale] at hcached
      obtain rfl := Option.some.inj hcached
      have hle : old.statusRevision ≤ msg.update.revision := hfits.later last _ hread
      exact ⟨le_antisymm hstale hle, hmirrors⟩
    · rw [if_neg hstale] at hcached
      obtain rfl := Option.some.inj hcached
      cases hupdate : msg.update with
      | full revision status => exact ⟨rfl, hfits.full revision status hupdate⟩
      | delta revision added removed usedVcpus usedRam =>
        refine ⟨rfl, pairwise_applyMembership hmirrors.increasing, fun vmid => ?_⟩
        obtain ⟨base, hbase, hmem⟩ := hfits.delta revision added removed usedVcpus usedRam hupdate
        have hsame : old.statusRevision.val = base :=
          (Prod.mk.inj (Option.some.inj (hread.symm.trans hbase))).2
        change vmid ∈ applyMembership old.data.vms added removed ↔ _
        rw [mem_applyMembership hmirrors.increasing, hmirrors.held vmid, hsame]
        exact (hmem vmid).symm

end Odorobo.Cluster
