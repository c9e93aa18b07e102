import Odorobo.AgentViews
import Odorobo.PlacementEffects

/-! Attribution of VM actors. As long as a VM actor always reports the same VM, a
discovered actor is stored once, under the VM its id is mapped to, so that its
loss is charged to that VM. -/

namespace Odorobo.SchedulerActor

/-! Runs in which `owner` tells the VM of every VM actor. -/

def Reports (owner : ActorId → Ulid) : Event → Prop
  | .vmUpdated actorRef data _ => data.vmid = owner actorRef.id
  | .createVM msg env => ∀ reply id, env.reply = .ok reply → replyActorId reply = some id →
      owner id = msg.vmid
  | _ => True

def OwnedStep (owner : ActorId → Ulid) (s : SchedulerActor) (action : Action)
    (t : SchedulerActor) : Prop :=
  Step s action t ∧ ∀ event, action = .handle event → Reports owner event

abbrev OwnedReachable (owner : ActorId → Ulid) (s : SchedulerActor) : Prop :=
  Transition.Reachable (OwnedStep owner) onStart s

/-! How often an actor is stored under a VM. -/

def actorsOf (dataCache : AHashMap Ulid (List CachedVMActor)) (vmid : Ulid) :
    List CachedVMActor :=
  (dataCache.get vmid).getD []

def occurrences (dataCache : AHashMap Ulid (List CachedVMActor)) (vmid : Ulid)
    (actorId : ActorId) : Nat :=
  (actorsOf dataCache vmid).countP (isActor actorId)

theorem isDiscovered_iff (dataCache : AHashMap Ulid (List CachedVMActor)) (vmid : Ulid) :
    isDiscovered dataCache vmid = true ↔ ∃ actorId, 0 < occurrences dataCache vmid actorId := by
  have hlist : isDiscovered dataCache vmid =
      (actorsOf dataCache vmid).any fun entry => entry.actorRef.isSome := by
    unfold isDiscovered actorsOf
    cases dataCache.get vmid <;> rfl
  simp only [hlist, occurrences, List.countP_pos_iff, List.any_eq_true]
  constructor
  · intro h
    obtain ⟨entry, hmem, hsome⟩ := h
    obtain ⟨actor, hactor⟩ := Option.isSome_iff_exists.mp hsome
    exact ⟨actor.id, entry, hmem, by simp [isActor, hactor]⟩
  · intro h
    obtain ⟨actorId, entry, hmem, hactor⟩ := h
    refine ⟨entry, hmem, ?_⟩
    unfold isActor at hactor
    cases href : entry.actorRef with
    | none => simp [href] at hactor
    | some actor => rfl

theorem countP_replaceFirst {α : Type} (p q : α → Bool) (x : α) (entries : List α)
    (h : entries.any p = true) (hsame : ∀ entry, p entry = true → q entry = q x) :
    (replaceFirst p x entries).countP q = entries.countP q := by
  induction entries with
  | nil => rfl
  | cons entry entries ih =>
    rw [replaceFirst]
    by_cases hp : p entry = true
    · rw [if_pos hp, List.countP_cons, List.countP_cons, hsame entry hp]
    · rw [if_neg hp, List.countP_cons, List.countP_cons, ih (by simpa [hp] using h)]

theorem countP_replaceFirst_new {α : Type} (p q : α → Bool) (x : α) (entries : List α)
    (h : entries.any p = true) (hold : ∀ entry, p entry = true → q entry = false)
    (hnew : q x = true) : (replaceFirst p x entries).countP q = entries.countP q + 1 := by
  induction entries with
  | nil => simp at h
  | cons entry entries ih =>
    rw [replaceFirst]
    by_cases hp : p entry = true
    · rw [if_pos hp, List.countP_cons_of_pos hnew,
        List.countP_cons_of_neg (by simp [hold entry hp])]
    · rw [if_neg hp, List.countP_cons, List.countP_cons, ih (by simpa [hp] using h)]
      omega

theorem isActor_some (actorId : ActorId) (actorRef : RemoteActorRef .vm) :
    isActor actorId ⟨some actorRef⟩ = decide (actorRef.id = actorId) := rfl

/-- An update stores its actor, at most once more, and moves nobody else. -/
theorem countP_updateCachedVmEntry (entries : List CachedVMActor) (actorRef : RemoteActorRef .vm)
    (actorId : ActorId) :
    (updateCachedVmEntry entries actorRef.id ⟨some actorRef⟩).countP (isActor actorId) =
      if actorId = actorRef.id then max 1 (entries.countP (isActor actorId))
      else entries.countP (isActor actorId) := by
  have hplaceholder : ∀ entry : CachedVMActor, entry.actorRef.isNone = true →
      isActor actorId entry = false := by
    intro entry hnone
    simp [isActor, Option.isNone_iff_eq_none.mp hnone]
  unfold updateCachedVmEntry
  by_cases hany : entries.any (isActor actorRef.id) = true
  · have hsame : ∀ entry, isActor actorRef.id entry = true →
        isActor actorId entry = isActor actorId ⟨some actorRef⟩ := by
      intro entry hentry
      unfold isActor at hentry ⊢
      cases href : entry.actorRef with
      | none => simp [href] at hentry
      | some other =>
        rw [href] at hentry
        have hid : other.id = actorRef.id := by simpa using hentry
        simp [hid]
    rw [if_pos hany, countP_replaceFirst _ _ _ _ hany hsame]
    by_cases hactor : actorId = actorRef.id
    · have hpos : 0 < entries.countP (isActor actorId) := by
        rw [hactor, List.countP_pos_iff]
        exact List.any_eq_true.mp hany
      rw [if_pos hactor]
      omega
    · rw [if_neg hactor]
  · have habsent : entries.countP (isActor actorRef.id) = 0 := by
      rw [List.countP_eq_zero]
      intro entry hentry hactor
      exact hany (List.any_eq_true.mpr ⟨entry, hentry, hactor⟩)
    rw [if_neg hany]
    by_cases hactor : actorId = actorRef.id
    · have hnew : isActor actorId ⟨some actorRef⟩ = true := by
        rw [isActor_some, hactor]
        simp
      rw [if_pos hactor, hactor, habsent]
      rw [hactor] at hplaceholder hnew
      split
      · next hnone =>
        rw [countP_replaceFirst_new _ _ _ _ hnone hplaceholder hnew, habsent]
        rfl
      · rw [List.countP_append, habsent]
        simp [hnew]
    · have hold : isActor actorId ⟨some actorRef⟩ = false := by
        rw [isActor_some]
        exact decide_eq_false fun heq => hactor heq.symm
      rw [if_neg hactor]
      split
      · next hnone =>
        apply countP_replaceFirst _ _ _ _ hnone
        intro entry hentry
        rw [hplaceholder entry hentry, hold]
      · rw [List.countP_append]
        simp [hold]

section Occurrences

variable (dataCache : AHashMap Ulid (List CachedVMActor)) (key vmid : Ulid) (actorId : ActorId)

theorem occurrences_updated (actorRef : RemoteActorRef .vm) :
    occurrences (dataCache.upsert key [] fun entries =>
        updateCachedVmEntry entries actorRef.id ⟨some actorRef⟩) vmid actorId =
      if vmid = key ∧ actorId = actorRef.id then max 1 (occurrences dataCache vmid actorId)
      else occurrences dataCache vmid actorId := by
  unfold occurrences actorsOf
  rw [AHashMap.get_upsert]
  by_cases hvmid : vmid = key
  · rw [if_pos hvmid, Option.getD_some, countP_updateCachedVmEntry, hvmid]
    simp
  · simp [hvmid]

theorem actorsOf_removeVmActor (id : ActorId) :
    actorsOf (removeVmActor id dataCache) vmid =
      (actorsOf dataCache vmid).filter fun entry => !isActor id entry := by
  unfold actorsOf removeVmActor
  rw [AHashMap.get_filterMap]
  cases dataCache.get vmid with
  | none => rfl
  | some entries =>
    dsimp only [Option.bind_some, Option.getD_some]
    split
    · next hempty => exact (List.isEmpty_iff.mp hempty).symm
    · rfl

theorem occurrences_removed (id : ActorId) :
    occurrences (removeVmActor id dataCache) vmid actorId =
      if actorId = id then 0 else occurrences dataCache vmid actorId := by
  unfold occurrences
  rw [actorsOf_removeVmActor, List.countP_filter]
  by_cases hactor : actorId = id
  · simp [hactor]
  · rw [if_neg hactor]
    apply List.countP_congr
    intro entry _
    unfold isActor
    cases entry.actorRef with
    | none => simp
    | some actor =>
      simp only [Option.any_some, Bool.and_eq_true, decide_eq_true_eq, Bool.not_eq_true',
        decide_eq_false_iff_not, and_iff_left_iff_imp]
      exact fun hid hother => hactor (hid.symm.trans hother)

theorem occurrences_erase :
    occurrences (dataCache.erase key) vmid actorId =
      if vmid = key then 0 else occurrences dataCache vmid actorId := by
  unfold occurrences actorsOf
  rw [AHashMap.get_erase]
  by_cases hvmid : vmid = key <;> simp [hvmid]

theorem occurrences_erase_le :
    occurrences (dataCache.erase key) vmid actorId ≤ occurrences dataCache vmid actorId := by
  rw [occurrences_erase]
  split <;> omega

theorem occurrences_placeholder :
    occurrences (dataCache.upsert key [] fun entries => entries ++ [⟨none⟩]) vmid actorId =
      occurrences dataCache vmid actorId := by
  unfold occurrences actorsOf
  rw [AHashMap.get_upsert]
  by_cases hvmid : vmid = key
  · rw [if_pos hvmid, Option.getD_some, List.countP_append, hvmid]
    simp [isActor]
  · rw [if_neg hvmid]

/-- Expiry drops the lists made of placeholders, of the VMs that it leaves no placement. -/
theorem get_expired (now : Instant) (placements : AHashMap Ulid (List VmPlacement)) :
    (cleanupUnresolvedVmCache now placements dataCache).2.get vmid =
      if (placements.get vmid).any (fun entries =>
            (entries.filter (staysUnresolved now (isDiscovered dataCache vmid))).isEmpty) ∧
          (dataCache.get vmid).any (fun entries => entries.all (·.actorRef.isNone)) then none
      else dataCache.get vmid := by
  have hfold : ∀ (keys : List Ulid) (cache : AHashMap Ulid (List CachedVMActor)),
      (keys.foldl (fun cache key =>
        if (cache.get key).any fun entries => entries.all (·.actorRef.isNone) then cache.erase key
        else cache) cache).get vmid =
        if vmid ∈ keys ∧ (cache.get vmid).any (fun entries => entries.all (·.actorRef.isNone)) then
          none
        else cache.get vmid := by
    intro keys
    induction keys with
    | nil => simp
    | cons key keys ih =>
      intro cache
      rw [List.foldl_cons, ih]
      by_cases hkey : vmid = key
      · subst hkey
        by_cases hnone : (cache.get vmid).any (fun entries => entries.all (·.actorRef.isNone)) = true
        · simp [hnone]
        · simp [hnone]
      · have hget : (if (cache.get key).any fun entries => entries.all (·.actorRef.isNone) then
            cache.erase key else cache).get vmid = cache.get vmid := by
          split
          · exact AHashMap.get_erase_ne _ hkey
          · rfl
        rw [hget]
        simp [hkey]
  have hkeys : vmid ∈ (((placements.mapValues fun vmid entries =>
      entries.filter (staysUnresolved now (isDiscovered dataCache vmid))).toList.filter
        fun e => e.2.isEmpty).map Prod.fst) ↔
      (placements.get vmid).any (fun entries =>
        (entries.filter (staysUnresolved now (isDiscovered dataCache vmid))).isEmpty) = true := by
    simp [AHashMap.mem_toList, Option.any_eq_true]
  unfold cleanupUnresolvedVmCache
  dsimp only
  rw [hfold]
  simp only [hkeys]

theorem occurrences_expired (now : Instant) (placements : AHashMap Ulid (List VmPlacement)) :
    occurrences (cleanupUnresolvedVmCache now placements dataCache).2 vmid actorId =
      occurrences dataCache vmid actorId := by
  unfold occurrences actorsOf
  rw [get_expired]
  split
  · next hdropped =>
    obtain ⟨entries, hget, hnone⟩ := (Option.any_eq_true _ _).mp hdropped.2
    rw [hget, eq_comm]
    refine List.countP_eq_zero.mpr fun entry hentry => ?_
    simp [isActor, Option.isNone_iff_eq_none.mp (List.all_eq_true.mp hnone entry hentry)]
  · rfl

end Occurrences

/-! Placing VMs stores no actor. -/

theorem occurrences_recreate_le (env : Ulid → DispatchEnv) (s : SchedulerActor)
    (vm : Ulid × VmManifest) (vmid : Ulid) (actorId : ActorId) :
    occurrences (s.recreate env vm).vmDataCache vmid actorId ≤
      occurrences s.vmDataCache vmid actorId := by
  have hreserved := occurrences_placeholder s.vmDataCache vm.1 vmid actorId
  rw [recreate_eq]
  split
  · exact le_rfl
  · split
    · exact hreserved.le
    · exact (occurrences_erase_le _ vm.1 vmid actorId).trans hreserved.le

theorem occurrences_created_le (s : SchedulerActor) (msg : CreateVM) (env : CreateEnv)
    (agentId : ActorId) (vmid : Ulid) (actorId : ActorId) :
    occurrences ((s.pendingResources.reserveCreate msg agentId env.now).settleCreate msg
      env).vmDataCache vmid actorId ≤ occurrences s.vmDataCache vmid actorId := by
  have hreserved := occurrences_placeholder s.vmDataCache msg.vmid vmid actorId
  apply settleCreate_rule (P := fun t =>
    occurrences t.vmDataCache vmid actorId ≤ occurrences s.vmDataCache vmid actorId)
  · exact hreserved.le
  · exact fun _ _ _ _ => hreserved.le
  · exact (occurrences_erase_le _ msg.vmid vmid actorId).trans hreserved.le

/-! Attribution. -/

structure Attributed (owner : ActorId → Ulid) (map : AHashMap ActorId Ulid)
    (dataCache : AHashMap Ulid (List CachedVMActor)) : Prop where
  mapped : ∀ vmid actorId, 0 < occurrences dataCache vmid actorId → map.get actorId = some vmid
  once : ∀ vmid actorId, occurrences dataCache vmid actorId ≤ 1
  owned : ∀ actorId vmid, map.get actorId = some vmid → owner actorId = vmid

section Attribution

variable {owner : ActorId → Ulid} {map : AHashMap ActorId Ulid}
  {dataCache dataCache' : AHashMap Ulid (List CachedVMActor)}

theorem Attributed.congr (h : Attributed owner map dataCache)
    (heq : ∀ vmid actorId, occurrences dataCache' vmid actorId = occurrences dataCache vmid actorId) :
    Attributed owner map dataCache' where
  mapped vmid actorId hpos := h.mapped vmid actorId (heq vmid actorId ▸ hpos)
  once vmid actorId := heq vmid actorId ▸ h.once vmid actorId
  owned := h.owned

/-- Mapping an actor to its owner contradicts nothing stored. -/
theorem Attributed.learn (h : Attributed owner map dataCache) {id : ActorId} {vmid : Ulid}
    (hid : owner id = vmid) : Attributed owner (map.insert id vmid) dataCache where
  mapped other actorId hpos := by
    have hmapped := h.mapped other actorId hpos
    rw [AHashMap.get_insert]
    by_cases hactor : actorId = id
    · rw [if_pos hactor, ← hid, ← hactor, h.owned actorId other hmapped]
    · rw [if_neg hactor, hmapped]
  once := h.once
  owned actorId other hget := by
    rw [AHashMap.get_insert] at hget
    by_cases hactor : actorId = id
    · rw [if_pos hactor] at hget
      rw [hactor, hid]
      exact Option.some.inj hget
    · rw [if_neg hactor] at hget
      exact h.owned actorId other hget

theorem Attributed.updated (h : Attributed owner map dataCache) {actorRef : RemoteActorRef .vm}
    {vmid : Ulid} (hid : owner actorRef.id = vmid) :
    Attributed owner (map.insert actorRef.id vmid) (dataCache.upsert vmid [] fun entries =>
      updateCachedVmEntry entries actorRef.id ⟨some actorRef⟩) where
  mapped other actorId hpos := by
    rw [occurrences_updated] at hpos
    by_cases hsame : other = vmid ∧ actorId = actorRef.id
    · rw [hsame.1, hsame.2]
      exact AHashMap.get_insert_self _ _ _
    · rw [if_neg hsame] at hpos
      exact (h.learn hid).mapped other actorId hpos
  once other actorId := by
    have honce := h.once other actorId
    rw [occurrences_updated]
    split <;> omega
  owned := (h.learn hid).owned

theorem Attributed.erase (h : Attributed owner map dataCache) (key : Ulid) :
    Attributed owner map (dataCache.erase key) where
  mapped vmid actorId hpos := by
    rw [occurrences_erase] at hpos
    by_cases hvmid : vmid = key
    · simp [hvmid] at hpos
    · rw [if_neg hvmid] at hpos
      exact h.mapped vmid actorId hpos
  once vmid actorId := by
    have honce := h.once vmid actorId
    rw [occurrences_erase]
    split <;> omega
  owned := h.owned

theorem Attributed.lost (h : Attributed owner map dataCache) (id : ActorId) :
    Attributed owner (map.erase id) (removeVmActor id dataCache) where
  mapped vmid actorId hpos := by
    rw [occurrences_removed] at hpos
    by_cases hactor : actorId = id
    · simp [hactor] at hpos
    · rw [if_neg hactor] at hpos
      rw [AHashMap.get_erase_ne _ hactor]
      exact h.mapped vmid actorId hpos
  once vmid actorId := by
    have honce := h.once vmid actorId
    rw [occurrences_removed]
    split <;> omega
  owned actorId vmid hget := by
    exact h.owned actorId vmid ((AHashMap.get_erase_eq_some _).mp hget).2

theorem Attributed.stopped (h : Attributed owner map dataCache) (key : Ulid) :
    Attributed owner (map.filterMap fun _ mapped => if mapped ≠ key then some mapped else none)
      (dataCache.erase key) where
  mapped vmid actorId hpos := by
    have hne : vmid ≠ key := by
      intro heq
      rw [occurrences_erase, if_pos heq] at hpos
      exact lt_irrefl 0 hpos
    have hmapped := (h.erase key).mapped vmid actorId hpos
    rw [AHashMap.get_filterMap, hmapped]
    simp [hne]
  once := (h.erase key).once
  owned actorId vmid hget := by
    rw [AHashMap.get_filterMap, Option.bind_eq_some_iff] at hget
    obtain ⟨mapped, hmapped, hkept⟩ := hget
    by_cases hne : mapped ≠ key
    · rw [if_pos hne] at hkept
      exact Option.some.inj hkept ▸ h.owned actorId mapped hmapped
    · simp [hne] at hkept

end Attribution

theorem attributed_recreate {owner : ActorId → Ulid} {env : Ulid → DispatchEnv}
    {s : SchedulerActor} {vm : Ulid × VmManifest}
    (h : Attributed owner s.vmActoridUlidMap s.vmDataCache) :
    Attributed owner (s.recreate env vm).vmActoridUlidMap (s.recreate env vm).vmDataCache := by
  have hreserved : Attributed owner s.vmActoridUlidMap
      (s.vmDataCache.upsert vm.1 [] fun entries => entries ++ [⟨none⟩]) :=
    h.congr fun vmid actorId => occurrences_placeholder s.vmDataCache vm.1 vmid actorId
  rw [recreate_eq]
  split
  · exact h
  · split
    · exact hreserved
    · exact hreserved.erase vm.1

theorem attributed_created {owner : ActorId → Ulid} {s : SchedulerActor} (msg : CreateVM)
    (env : CreateEnv) (agentId : ActorId) (reports : Reports owner (.createVM msg env))
    (h : Attributed owner s.vmActoridUlidMap s.vmDataCache) :
    let t := (s.pendingResources.reserveCreate msg agentId env.now).settleCreate msg env
    Attributed owner t.vmActoridUlidMap t.vmDataCache := by
  have hreserved : Attributed owner s.vmActoridUlidMap
      (s.vmDataCache.upsert msg.vmid [] fun entries => entries ++ [⟨none⟩]) :=
    h.congr fun vmid actorId => occurrences_placeholder s.vmDataCache msg.vmid vmid actorId
  apply settleCreate_rule (P := fun t => Attributed owner t.vmActoridUlidMap t.vmDataCache)
  · exact hreserved
  · intro reply id hreply hid
    exact hreserved.learn (reports reply id hreply hid)
  · exact hreserved.erase msg.vmid

theorem attributed_outcome {owner : ActorId → Ulid} {s t : SchedulerActor} {event : Event}
    (outcome : Outcome s event t) (reports : Reports owner event)
    (h : Attributed owner s.vmActoridUlidMap s.vmDataCache) :
    Attributed owner t.vmActoridUlidMap t.vmDataCache := by
  cases outcome with
  | watch => exact h
  | vmUpdated actorRef data now =>
    rw [vmUpdated_eq]
    exact h.updated reports.symm
  | vmLost event kinds id =>
    rw [cleanupVmActor_eq]
    exact h.lost id
  | agentLost => exact h
  | full => exact h
  | delta => exact h
  | tick now env =>
    apply (reconcile_rule (P := fun t => Attributed owner t.vmActoridUlidMap t.vmDataCache) s now
      env ?_ fun t vm ht _ => attributed_recreate ht).1
    exact h.congr fun vmid actorId =>
      occurrences_expired s.vmDataCache vmid actorId now s.vmPlacements
  | unscheduled => exact h
  | created msg env agent => exact attributed_created msg env agent.id reports h
  | stopped event vmid => exact h.stopped vmid

end Odorobo.SchedulerActor
