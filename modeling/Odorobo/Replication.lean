import Odorobo.UpdateChain

/-! Status replication is exact. As long as no letter of an earlier task is
handled after one of a later task, the waiting letters that can still be handled
are a chain from what the scheduler has cached to what the updater has sent, and
the cached status lists what the agent held at the cached revision. -/

namespace Odorobo.Cluster

open SchedulerActor AgentActor

/-! Letters wait in the order of their tasks. -/

structure Ordered (x : Cluster) : Prop where
  sorted : x.mailbox.Pairwise fun a b => a.sender.task ≤ b.sender.task
  spawned : ∀ letter ∈ x.mailbox, letter.sender.task < x.tasks
  latest : x.latest ≤ x.tasks
  current : ∀ updater, x.updater = some updater →
    updater.task.task < x.tasks ∧ x.latest ≤ updater.task.task ∧
      ∀ letter ∈ x.mailbox, letter.sender.task ≤ updater.task.task

/-- The letters that may still be handled. -/
def live (x : Cluster) : List Letter :=
  x.mailbox.filter fun letter => x.latest ≤ letter.sender.task

section Order

variable {agentId : ActorId} {x y : Cluster}

theorem Ordered.observe (h : Ordered x) (hmailbox : y.mailbox = x.mailbox)
    (hlatest : y.latest = x.latest) (htasks : y.tasks = x.tasks)
    (hupdater : ∀ updater, y.updater = some updater →
      ∃ old, x.updater = some old ∧ updater.task = old.task) : Ordered y where
  sorted := hmailbox ▸ h.sorted
  spawned := by
    rw [hmailbox, htasks]
    exact h.spawned
  latest := by
    rw [hlatest, htasks]
    exact h.latest
  current updater hsome := by
    obtain ⟨old, hold, htask⟩ := hupdater updater hsome
    rw [hmailbox, hlatest, htasks, htask]
    exact h.current old hold

/-- The running task sends a letter. -/
theorem Ordered.send (h : Ordered x) {updater : Updater} (hupdater : x.updater = some updater)
    (notice : Notice) (hmailbox : y.mailbox = x.mailbox ++ [⟨updater.task, notice⟩])
    (hlatest : y.latest = x.latest) (htasks : y.tasks = x.tasks)
    (hnext : ∀ next, y.updater = some next → next.task = updater.task) : Ordered y := by
  obtain ⟨hspawned, hyoungest, hcurrent⟩ := h.current updater hupdater
  have hle : ∀ letter ∈ y.mailbox, letter.sender.task ≤ updater.task.task := by
    intro letter hmem
    rw [hmailbox, List.mem_append, List.mem_singleton] at hmem
    cases hmem with
    | inl hold => exact hcurrent letter hold
    | inr hnew => rw [hnew]
  refine ⟨?_, ?_, ?_, ?_⟩
  · rw [hmailbox, List.pairwise_append]
    refine ⟨h.sorted, List.pairwise_singleton _ _, ?_⟩
    intro letter hmem sent hsent
    rw [List.mem_singleton.mp hsent]
    exact hcurrent letter hmem
  · intro letter hmem
    rw [htasks]
    exact (hle letter hmem).trans_lt hspawned
  · rw [hlatest, htasks]
    exact h.latest
  · intro next hsome
    rw [hnext next hsome, htasks, hlatest]
    exact ⟨hspawned, hyoungest, hle⟩

theorem Ordered.handled (h : Ordered x) (event : Event) : Ordered (x.handled agentId event) :=
  h.observe rfl rfl rfl fun updater hsome =>
    ⟨updater, (Option.filter_eq_some_iff.mp hsome).1, rfl⟩

theorem Ordered.taken (h : Ordered x) {position : Nat} {letter : Letter}
    (hletter : x.mailbox[position]? = some letter) : Ordered (x.taken position letter) where
  sorted := h.sorted.sublist (List.eraseIdx_sublist ..)
  spawned other hmem := h.spawned other (List.mem_of_mem_eraseIdx hmem)
  latest := max_le h.latest (h.spawned letter (List.mem_of_getElem? hletter)).le
  current updater hsome := by
    obtain ⟨hspawned, hyoungest, hcurrent⟩ := h.current updater hsome
    refine ⟨hspawned, max_le hyoungest (hcurrent letter (List.mem_of_getElem? hletter)), ?_⟩
    exact fun other hmem => hcurrent other (List.mem_of_mem_eraseIdx hmem)

theorem Ordered.discovered (h : Ordered x) (linked : Bool) :
    Ordered (x.discovered agentId linked) := by
  have hhandled : Ordered (x.handled agentId
      (.agentActorDiscovered ⟨agentId⟩ ⟨x.updater.isNone, linked, ⟨x.tasks⟩⟩)) := h.handled _
  unfold Cluster.discovered
  dsimp only
  split
  · exact hhandled
  · refine ⟨hhandled.sorted, ?_, Nat.le_succ_of_le h.latest, ?_⟩
    · exact fun letter hmem => Nat.lt_succ_of_lt (h.spawned letter hmem)
    · intro updater hsome
      obtain rfl := Option.some.inj hsome
      exact ⟨Nat.lt_succ_self x.tasks, h.latest, fun letter hmem => (h.spawned letter hmem).le⟩

theorem Ordered.moved {move : Move} (h : Ordered x) (hmoved : Moved agentId x move y) :
    Ordered y := by
  cases hmoved with
  | performed op => exact ⟨h.sorted, h.spawned, h.latest, h.current⟩
  | answered updater hupdater =>
    refine h.observe rfl rfl rfl fun next hsome => ?_
    obtain rfl := Option.some.inj hsome
    exact ⟨updater, hupdater, rfl⟩
  | forwarded updater answer hupdater =>
    refine h.send hupdater (.updated answer) rfl rfl rfl fun next hsome => ?_
    obtain rfl := Option.some.inj hsome
    rfl
  | failed updater hupdater =>
    unfold Cluster.pollFailed
    dsimp only
    split
    · exact h.send hupdater .stopped rfl rfl rfl (by simp)
    · refine h.observe rfl rfl rfl fun next hsome => ?_
      obtain rfl := Option.some.inj hsome
      exact ⟨updater, hupdater, rfl⟩
  | delivered position now letter hletter => exact (h.taken hletter).handled _
  | discovered linked => exact h.discovered linked
  | handled event => exact h.handled event

/-- A letter of the running task can be handled. -/
theorem Ordered.live_send (h : Ordered x) {updater : Updater}
    (hupdater : x.updater = some updater) (notice : Notice) :
    live { x with mailbox := x.mailbox ++ [⟨updater.task, notice⟩] } =
      x.live ++ [⟨updater.task, notice⟩] := by
  have hyoungest : x.latest ≤ updater.task.task := (h.current updater hupdater).2.1
  simp [live, hyoungest]

/-- Handling a letter leaves the letters behind it, those of its own task and of
later ones. -/
theorem Ordered.live_taken (h : Ordered x) {position : Nat} {letter : Letter}
    (hletter : x.mailbox[position]? = some letter)
    (hfirst : isNext x.mailbox position letter = true)
    (horder : x.latest ≤ letter.sender.task) :
    ∃ early, x.live = early ++ letter :: (x.taken position letter).live ∧
      (∀ other ∈ early, other.sender.task < letter.sender.task) ∧
      ∀ other ∈ (x.taken position letter).live, letter.sender.task ≤ other.sender.task := by
  obtain ⟨hposition, hget⟩ := List.getElem?_eq_some_iff.mp hletter
  have hsplit : x.mailbox = x.mailbox.take position ++ letter :: x.mailbox.drop (position + 1) := by
    rw [← hget, ← List.drop_eq_getElem_cons hposition, List.take_append_drop]
  have hsorted := h.sorted
  rw [hsplit, List.pairwise_append, List.pairwise_cons] at hsorted
  obtain ⟨_, ⟨hbehind, _⟩, hbefore⟩ := hsorted
  have hearly : ∀ other ∈ x.mailbox.take position, other.sender.task < letter.sender.task := by
    intro other hmem
    have hne : other.sender ≠ letter.sender := by
      rw [isNext, List.all_eq_true] at hfirst
      simpa using hfirst other hmem
    have hle := hbefore other hmem letter List.mem_cons_self
    refine lt_of_le_of_ne hle fun heq => hne ?_
    cases hs : other.sender
    cases hs' : letter.sender
    simpa [hs, hs'] using heq
  have hrest : (x.taken position letter).live = x.mailbox.drop (position + 1) := by
    have hmax : max x.latest letter.sender.task = letter.sender.task := max_eq_right horder
    unfold live Cluster.taken
    dsimp only
    rw [List.eraseIdx_eq_take_drop_succ, hmax, List.filter_append, List.filter_eq_nil_iff.mpr,
      List.filter_eq_self.mpr, List.nil_append]
    · exact fun other hmem => decide_eq_true (hbehind other hmem)
    · intro other hmem
      simpa using hearly other hmem
  refine ⟨(x.mailbox.take position).filter fun other => x.latest ≤ other.sender.task, ?_, ?_, ?_⟩
  · have hlater : (x.mailbox.drop (position + 1)).filter
        (fun other => x.latest ≤ other.sender.task) = x.mailbox.drop (position + 1) :=
      List.filter_eq_self.mpr fun other hmem => decide_eq_true (horder.trans (hbehind other hmem))
    rw [hrest, live]
    nth_rewrite 1 [hsplit]
    rw [List.filter_append, List.filter_cons, if_pos (decide_eq_true horder), hlater]
  · exact fun other hmem => hearly other (List.mem_of_mem_filter hmem)
  · rw [hrest]
    exact hbehind

end Order

/-! The invariant of the system. -/

/-- The scheduler has handled updates up to `read`, and the updater has sent
updates up to `sent`; the letters that may still be handled lead from the one to
the other. -/
structure InStep (agentId : ActorId) (x : Cluster) (read sent : Mark) : Prop where
  chain : Chain x.changes read x.live sent
  past : Behind read x.changes.length
  cached : ∀ cached, x.scheduler.agentDataCache.get agentId = some cached →
    (∃ last, read = some (last, cached.statusRevision.val)) ∧
      Mirrors x.changes cached.statusRevision.val cached.data.vms
  polled : ∀ updater, x.updater = some updater → updater.initialStatus = false →
    sent = some (updater.task, updater.statusRevision.val)
  awaited : ∀ updater answer, x.updater = some updater → updater.awaiting = some answer →
    Fits x.changes sent updater.task answer.1

structure Invariant (agentId : ActorId) (x : Cluster) : Prop where
  reachable : SchedulerActor.Reachable x.scheduler
  recorded : Recorded x.changes x.agent
  ordered : Ordered x
  inStep : x.changes.length < 2 ^ 64 → ∃ read sent, InStep agentId x read sent

/-- The task of before at the same revision, or one that will ask for a snapshot;
it awaits nothing new. -/
structure Continues (before : Option Updater) (updater : Updater) : Prop where
  polled : updater.initialStatus = true ∨ ∃ old, before = some old ∧
    old.initialStatus = false ∧ updater.task = old.task ∧
    updater.statusRevision = old.statusRevision
  awaited : updater.awaiting = none ∨ ∃ old, before = some old ∧
    updater.task = old.task ∧ updater.awaiting = old.awaiting

theorem Continues.same {before : Option Updater} {updater : Updater} (h : before = some updater) :
    Continues before updater := by
  refine ⟨?_, Or.inr ⟨updater, h, rfl, rfl⟩⟩
  cases hinitial : updater.initialStatus with
  | true => exact Or.inl rfl
  | false => exact Or.inr ⟨updater, h, hinitial, rfl, rfl⟩

section Steps

variable {agentId : ActorId} {x y : Cluster} {read sent : Mark}

/-- Neither the agent nor the mailbox moves, and the cached status is kept or
dropped. -/
theorem InStep.observe (h : InStep agentId x read sent) (hchanges : y.changes = x.changes)
    (hlive : y.live = x.live)
    (hcached : y.scheduler.agentDataCache.get agentId = x.scheduler.agentDataCache.get agentId ∨
      y.scheduler.agentDataCache.get agentId = none)
    (hupdater : ∀ updater, y.updater = some updater → Continues x.updater updater) :
    InStep agentId y read sent where
  chain := by
    rw [hchanges, hlive]
    exact h.chain
  past := by
    rw [hchanges]
    exact h.past
  cached cached hget := by
    rw [hchanges]
    cases hcached with
    | inl hkept => exact h.cached cached (hkept ▸ hget)
    | inr hdropped => simp [hdropped] at hget
  polled updater hsome hinitial := by
    cases (hupdater updater hsome).polled with
    | inl htrue => simp [htrue] at hinitial
    | inr hold =>
      obtain ⟨old, hbefore, hfalse, htask, hrevision⟩ := hold
      rw [htask, hrevision]
      exact h.polled old hbefore hfalse
  awaited updater answer hsome hanswer := by
    rw [hchanges]
    cases (hupdater updater hsome).awaited with
    | inl hnone => simp [hnone] at hanswer
    | inr hold =>
      obtain ⟨old, hbefore, htask, hawaiting⟩ := hold
      rw [htask]
      exact h.awaited old answer hbefore (hawaiting ▸ hanswer)

theorem InStep.perform (h : InStep agentId x read sent) (op : MembershipOp) :
    InStep agentId
      { x with agent := x.agent.perform op, changes := x.changes ++ x.agent.changesOf op }
      read sent where
  chain := h.chain.append_log _
  past := h.past.trans (by simp)
  cached cached hget := by
    obtain ⟨⟨last, hread⟩, hmirrors⟩ := h.cached cached hget
    exact ⟨⟨last, hread⟩, hmirrors.append (h.past last _ hread) _⟩
  polled := h.polled
  awaited updater answer hsome hanswer := (h.awaited updater answer hsome hanswer).append _

theorem InStep.answer (h : InStep agentId x read sent) (hrecorded : Recorded x.changes x.agent)
    (hfew : x.changes.length < 2 ^ 64) {updater : Updater} (hupdater : x.updater = some updater) :
    InStep agentId
      { x with updater := some { updater with awaiting := some (answer x.agent updater) } }
      read sent where
  chain := h.chain
  past := h.past
  cached := h.cached
  polled next hnext hinitial := by
    obtain rfl := Option.some.inj hnext
    exact h.polled updater hupdater hinitial
  awaited next waiting hnext hwaiting := by
    obtain rfl := Option.some.inj hnext
    obtain rfl := Option.some.inj hwaiting
    exact fits_answer hrecorded hfew (h.chain.sent_behind h.past) (h.polled updater hupdater)

theorem InStep.forward (h : InStep agentId x read sent) (hordered : Ordered x)
    {updater : Updater} {answer : Answer} (hupdater : x.updater = some updater)
    (hanswer : updater.awaiting = some answer) :
    InStep agentId
      { x with
        updater := some (updater.forwarded answer)
        mailbox := x.mailbox ++ [⟨updater.task, .updated answer⟩] }
      read (some (updater.task, answer.1.revision.val)) where
  chain := by
    have hchain := h.chain.updated (h.awaited updater answer hupdater hanswer)
    rw [← hordered.live_send hupdater (.updated answer)] at hchain
    exact hchain
  past := h.past
  cached := h.cached
  polled next hnext _ := by
    obtain rfl := Option.some.inj hnext
    rfl
  awaited next waiting hnext hwaiting := by
    obtain rfl := Option.some.inj hnext
    simp [Updater.forwarded] at hwaiting

theorem InStep.pollFailed (h : InStep agentId x read sent) (hordered : Ordered x)
    {updater : Updater} (hupdater : x.updater = some updater) :
    InStep agentId (x.pollFailed updater) read sent := by
  unfold Cluster.pollFailed
  dsimp only
  split
  · have hchain := h.chain.stopped updater.task
    rw [← hordered.live_send hupdater .stopped] at hchain
    exact ⟨hchain, h.past, h.cached, by simp, by simp⟩
  · refine h.observe rfl rfl (Or.inl rfl) fun next hnext => ?_
    obtain rfl := Option.some.inj hnext
    exact ⟨(Continues.same hupdater).polled, Or.inl rfl⟩

theorem InStep.handled (h : InStep agentId x read sent) (event : Event)
    (hother : ∀ msg now, event = .agentUpdated msg now → msg.actorId ≠ agentId) :
    InStep agentId (x.handled agentId event) read sent :=
  h.observe rfl rfl (get_kept_or_dropped (handle_outcome x.scheduler event) hother)
    fun _ hupdater => Continues.same (Option.filter_eq_some_iff.mp hupdater).1

theorem InStep.discovered (h : InStep agentId x read sent) (linked : Bool) :
    InStep agentId (x.discovered agentId linked) read sent := by
  have hhandled := h.handled
    (.agentActorDiscovered ⟨agentId⟩ ⟨x.updater.isNone, linked, ⟨x.tasks⟩⟩) (by simp)
  unfold Cluster.discovered
  dsimp only
  split
  · exact hhandled
  · refine hhandled.observe rfl rfl (Or.inl rfl) fun updater hupdater => ?_
    obtain rfl := Option.some.inj hupdater
    exact ⟨Or.inl rfl, Or.inl rfl⟩

/-- Letters of earlier tasks can be passed over: the running task is younger than
they are, so what it has sent does not hang on them. -/
theorem InStep.skip (h : InStep agentId x read sent) (hordered : Ordered x) {position : Nat}
    {letter : Letter} (hletter : x.mailbox[position]? = some letter)
    (hfirst : isNext x.mailbox position letter = true) (horder : x.latest ≤ letter.sender.task) :
    ∃ sent', Chain x.changes read (letter :: (x.taken position letter).live) sent' ∧
      (∀ updater, x.updater = some updater → updater.initialStatus = false →
        sent' = some (updater.task, updater.statusRevision.val)) ∧
      ∀ updater answer, x.updater = some updater → updater.awaiting = some answer →
        Fits x.changes sent' updater.task answer.1 := by
  obtain ⟨early, hlive, hearly, hrest⟩ := hordered.live_taken hletter hfirst horder
  have hchain := h.chain
  rw [hlive] at hchain
  have hne : ∀ other ∈ early, ∀ later ∈ letter :: (x.taken position letter).live,
      later.sender ≠ other.sender := by
    intro other hother later hlater heq
    have hlt := hearly other hother
    have hle : letter.sender.task ≤ later.sender.task := by
      cases List.mem_cons.mp hlater with
      | inl hself => rw [hself]
      | inr hbehind => exact hrest later hbehind
    rw [heq] at hle
    omega
  obtain ⟨sent', hchain', hsent⟩ := hchain.skip hne
  refine ⟨sent', hchain', ?_⟩
  cases hsent with
  | inl hsame =>
    rw [hsame]
    exact ⟨h.polled, h.awaited⟩
  | inr hdropped =>
    obtain ⟨other, hother, n, hsent, hbehind⟩ := hdropped
    have hyounger : ∀ updater, x.updater = some updater → updater.task ≠ other.sender := by
      intro updater hupdater heq
      have hle := (hordered.current updater hupdater).2.2 letter (List.mem_of_getElem? hletter)
      have hlt := hearly other hother
      rw [heq] at hle
      omega
    constructor
    · intro updater hupdater hinitial
      have hmark := hsent.symm.trans (h.polled updater hupdater hinitial)
      exact absurd (Prod.mk.inj (Option.some.inj hmark)).1.symm (hyounger updater hupdater)
    · intro updater answer hupdater hanswer
      have hfits := h.awaited updater answer hupdater hanswer
      rw [hsent] at hfits
      exact hfits.rebase (hyounger updater hupdater) hbehind

theorem InStep.deliver (h : InStep agentId x read sent) (hordered : Ordered x) {position : Nat}
    {letter : Letter} (hletter : x.mailbox[position]? = some letter)
    (hfirst : isNext x.mailbox position letter = true) (horder : x.latest ≤ letter.sender.task)
    (now : Instant) :
    ∃ read' sent', InStep agentId
      ((x.taken position letter).handled agentId (letter.event agentId now)) read' sent' := by
  obtain ⟨sent', hchain, hpolled, hawaited⟩ := h.skip hordered hletter hfirst horder
  obtain ⟨task, notice⟩ := letter
  cases notice with
  | stopped =>
    have htaken : InStep agentId (x.taken position ⟨task, .stopped⟩) read sent' :=
      ⟨hchain, h.past, h.cached, hpolled, hawaited⟩
    exact ⟨read, sent', htaken.handled (.agentUpdaterStopped agentId) (by simp)⟩
  | updated answer =>
    obtain ⟨hfits, hrest⟩ := hchain
    refine ⟨some (task, answer.1.revision.val), sent', hrest, behind_some.mpr hfits.past, ?_, ?_, ?_⟩
    · intro cached hget
      have haccept : accept (x.scheduler.agentDataCache.get agentId)
          ⟨agentId, ⟨agentId⟩, answer.1, agentRef_id agentId, answer.2⟩ = some cached :=
        (get_agentUpdated x.scheduler
          ⟨agentId, ⟨agentId⟩, answer.1, agentRef_id agentId, answer.2⟩ now).symm.trans hget
      obtain ⟨hrevision, hmirrors⟩ := mirrors_accept hfits h.cached haccept
      exact ⟨⟨task, congrArg (fun revision : U64 => some (task, revision.val)) hrevision⟩, hmirrors⟩
    · exact fun updater hupdater => hpolled updater (Option.filter_eq_some_iff.mp hupdater).1
    · intro updater waiting hupdater
      exact hawaited updater waiting (Option.filter_eq_some_iff.mp hupdater).1

theorem Moved.inStep {move : Move} (h : Moved agentId x move y) (horder : InOrder x move)
    (hinv : Invariant agentId x) (hfew : x.changes.length < 2 ^ 64) :
    ∃ read sent, InStep agentId y read sent := by
  obtain ⟨read, sent, hstep⟩ := hinv.inStep hfew
  cases h with
  | performed op => exact ⟨read, sent, hstep.perform op⟩
  | answered updater hupdater => exact ⟨read, sent, hstep.answer hinv.recorded hfew hupdater⟩
  | forwarded updater answer hupdater hanswer =>
    exact ⟨read, _, hstep.forward hinv.ordered hupdater hanswer⟩
  | failed updater hupdater => exact ⟨read, sent, hstep.pollFailed hinv.ordered hupdater⟩
  | delivered position now letter hletter hfirst =>
    have hlatest : x.latest ≤ letter.sender.task := by
      simpa [InOrder, hletter] using horder
    exact hstep.deliver hinv.ordered hletter hfirst hlatest now
  | discovered linked => exact ⟨read, sent, hstep.discovered linked⟩
  | handled event hpolling =>
    refine ⟨read, sent, hstep.handled event ?_⟩
    intro msg now hevent
    rw [hevent] at hpolling
    simpa [isPolling] using hpolling

theorem invariant_step {move : Move} (h : Invariant agentId x) (horder : InOrder x move)
    (hstep : Step agentId x move y) : Invariant agentId y := by
  have hfewer : y.changes.length < 2 ^ 64 → x.changes.length < 2 ^ 64 := by
    obtain ⟨made, hmade, _⟩ := changes_of_step hstep
    rw [hmade, List.length_append]
    omega
  cases hstep with
  | inl hnext =>
    have hmoved := moved_of_next hnext
    exact ⟨hmoved.reachable h.reachable, hmoved.recorded h.recorded, h.ordered.moved hmoved,
      fun hfew => hmoved.inStep horder h (hfewer hfew)⟩
  | inr hrehash =>
    obtain ⟨_, hr, heq⟩ := hrehash
    have hreach : SchedulerActor.Reachable y.scheduler := h.reachable.tail (l := .rehash) hr
    rw [heq] at hfewer ⊢
    refine ⟨hreach, h.recorded, ⟨h.ordered.sorted, h.ordered.spawned, h.ordered.latest,
      h.ordered.current⟩, fun hfew => ?_⟩
    obtain ⟨read, sent, hin⟩ := h.inStep hfew
    refine ⟨read, sent, hin.observe rfl rfl (Or.inl ?_) fun updater hsome => Continues.same hsome⟩
    rw [hr.agentDataCache]

theorem invariant_onStart (config : Config) (host : Host) :
    Invariant agentId (onStart config host) where
  reachable := Transition.Reachable.refl SchedulerActor.onStart
  recorded := recorded_onStart config host
  ordered := ⟨List.Pairwise.nil, by simp [onStart], le_rfl, by simp [onStart]⟩
  inStep _ := ⟨none, none, rfl, by simp [Behind], by simp [onStart, SchedulerActor.onStart],
    by simp [onStart], by simp [onStart]⟩

end Steps

/-! Exact replication. -/

theorem invariant_of_run {agentId : ActorId} {config : Config} {host : Host}
    {run : List (Move × Cluster)}
    (isRun : Transition.IsRun (Step agentId) (onStart config host) run)
    (inOrder : Transition.AllSteps InOrder (onStart config host) run) :
    Transition.AllStates (Invariant agentId) (onStart config host) run :=
  Transition.allStates_of_step (fun _ _ _ h horder hstep => invariant_step h horder hstep)
    (onStart config host) run (invariant_onStart config host) isRun inOrder

end Odorobo.Cluster
