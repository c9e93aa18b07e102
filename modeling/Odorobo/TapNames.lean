import Mathlib.Data.List.DropRight
import Odorobo.Transforms
import Odorobo.Translation

/-! The TAP devices of one VM. A name keeps the end of the VM id and the end of
the network id, in lower case, so two interfaces share a device exactly when
their network ids end alike. -/

namespace Odorobo

namespace NetworkTransform

/-! Components are ASCII, so that bytes are characters. -/

theorem isAlphanum_le {c : Char} (h : c.isAlphanum = true) : c.val ≤ 127 := by
  cases Bool.or_eq_true_iff.mp h with
  | inl halpha =>
    cases Bool.or_eq_true_iff.mp halpha with
    | inl hupper =>
      have hle : c.val ≤ 'Z'.val := (of_decide_eq_true hupper).2
      exact UInt32.le_trans hle (by decide)
    | inr hlower =>
      have hle : c.val ≤ 'z'.val := of_decide_eq_true (Bool.and_eq_true_iff.mp hlower).2
      exact UInt32.le_trans hle (by decide)
  | inr hdigit =>
    have hle : c.val ≤ '9'.val := of_decide_eq_true (Bool.and_eq_true_iff.mp hdigit).2
    exact UInt32.le_trans hle (by decide)

theorem toLower_le {c : Char} (h : c.val ≤ 127) : c.toLower.val ≤ 127 := by
  unfold Char.toLower
  split
  · next hupper =>
    have hle := UInt32.le_iff_toNat_le.mp hupper.2
    have hgap : ('a'.val - 'A'.val).toNat = 32 := rfl
    have hZ : 'Z'.val.toNat = 90 := rfl
    have hbound : (127 : UInt32).toNat = 127 := rfl
    rw [UInt32.le_iff_toNat_le, UInt32.toNat_add, hgap]
    omega
  · exact h

theorem utf8Size_sanitized (value : String) : ∀ c ∈ sanitizeComponent value, c.utf8Size = 1 := by
  intro c hc
  obtain ⟨d, _, rfl⟩ := List.mem_map.mp hc
  split
  · next hallowed =>
    simp only [Bool.or_eq_true, beq_iff_eq] at hallowed
    obtain (hword | rfl) | rfl := hallowed
    · exact Char.utf8Size_eq_one_iff.mpr (toLower_le (isAlphanum_le hword))
    · decide
    · decide
  · decide

theorem byteLength_of_ascii {cs : List Char} (h : ∀ c ∈ cs, c.utf8Size = 1) :
    Text.byteLength cs = cs.length := by
  induction cs with
  | nil => rfl
  | cons c cs ih =>
    have hrest := ih fun d hd => h d (List.mem_cons_of_mem c hd)
    rw [Text.byteLength, List.map_cons, List.sum_cons, h c List.mem_cons_self,
      ← Text.byteLength, hrest, List.length_cons, Nat.add_comm]

theorem sliceFrom_of_ascii {cs : List Char} (h : ∀ c ∈ cs, c.utf8Size = 1) :
    ∀ {n : Nat}, n ≤ cs.length → Text.sliceFrom n cs = some (cs.drop n) := by
  induction cs with
  | nil =>
    intro n hn
    obtain rfl : n = 0 := by simpa using hn
    rfl
  | cons c cs ih =>
    intro n hn
    cases n with
    | zero => rfl
    | succ n =>
      have hone := h c List.mem_cons_self
      rw [Text.sliceFrom, hone, if_pos (by omega), Nat.add_sub_cancel, List.drop_succ_cons]
      exact ih (fun d hd => h d (List.mem_cons_of_mem c hd)) (by simpa using hn)

theorem lastBytes_of_ascii {cs : List Char} (h : ∀ c ∈ cs, c.utf8Size = 1) (budget : Nat) :
    lastBytes budget cs = some (cs.rtake budget) := by
  rw [lastBytes, byteLength_of_ascii h, List.rtake]
  split
  · exact sliceFrom_of_ascii h (by omega)
  · rw [Nat.sub_eq_zero_of_le (by omega), List.drop_zero]

/-- The end of a component that goes into the name. -/
def suffixOf (value : String) : List Char := (sanitizeComponent value).rtake 4

def tapName (vmid networkId : String) : String :=
  .ofList (tapPrefix ++ ['-'] ++ suffixOf vmid ++ ['-'] ++ suffixOf networkId)

theorem ascii_suffixOf (value : String) : ∀ c ∈ suffixOf value, c.utf8Size = 1 := by
  intro c hc
  exact utf8Size_sanitized value c (List.mem_of_mem_drop hc)

theorem length_suffixOf (value : String) : (suffixOf value).length ≤ 4 := by
  rw [suffixOf, List.rtake, List.length_drop]
  omega

/-- What holds of the prefix, of a dash and of both parts holds of a whole name. -/
theorem forall_mem_joined {P : Char → Prop} {vmidPart networkPart : List Char}
    (hpre : ∀ c ∈ tapPrefix, P c) (hdash : P '-') (hvmid : ∀ c ∈ vmidPart, P c)
    (hnetwork : ∀ c ∈ networkPart, P c) :
    ∀ c ∈ tapPrefix ++ ['-'] ++ vmidPart ++ ['-'] ++ networkPart, P c := by
  simp only [List.forall_mem_append, List.forall_mem_singleton]
  exact ⟨⟨⟨⟨hpre, hdash⟩, hvmid⟩, hdash⟩, hnetwork⟩

/-- Two suffixes fit beside the prefix and the separators. -/
theorem byteLength_joined (vmid networkId : String) :
    Text.byteLength (tapPrefix ++ ['-'] ++ suffixOf vmid ++ ['-'] ++ suffixOf networkId) ≤
      maxIfnameLen := by
  have hpre : ∀ c ∈ tapPrefix, c.utf8Size = 1 := by
    have hall : tapPrefix.all (fun c => c.utf8Size == 1) = true := by decide
    exact fun c hc => beq_iff_eq.mp (List.all_eq_true.mp hall c hc)
  have hvmid := length_suffixOf vmid
  have hnetwork := length_suffixOf networkId
  have hlength : tapPrefix.length = 5 := rfl
  rw [byteLength_of_ascii (forall_mem_joined hpre (by decide) (ascii_suffixOf vmid)
    (ascii_suffixOf networkId))]
  simp only [List.length_append, List.length_singleton, hlength, maxIfnameLen]
  omega

/-- No name is cut. -/
theorem deterministicTapName_eq (vmid networkId : String) :
    deterministicTapName vmid networkId = some (tapName vmid networkId) := by
  have hfits := byteLength_joined vmid networkId
  have havailable : maxIfnameLen - (Text.byteLength tapPrefix + 2) = 8 := by decide
  have hhalf : max (8 / 2) 1 = 4 := by decide
  have hrest : max (8 - 4) 1 = 4 := by decide
  unfold deterministicTapName
  dsimp only
  rw [havailable, hhalf, hrest, if_neg (by omega), lastBytes_of_ascii (utf8Size_sanitized vmid),
    lastBytes_of_ascii (utf8Size_sanitized networkId), Option.bind_some, Option.bind_some,
    ← suffixOf, ← suffixOf, if_neg (by omega), tapName]

theorem tapName_eq_iff {vmid networkId networkId' : String} :
    tapName vmid networkId = tapName vmid networkId' ↔ suffixOf networkId = suffixOf networkId' := by
  rw [tapName, tapName, String.ofList_inj, List.append_cancel_left_eq]

/-- Every network reference is given its name, and every other entry keeps its own. -/
def assignedTap (vmid : String) (net : NetConfig) : Option String :=
  match net.id.bind (Text.stripPrefix "net://") with
  | none => net.tap
  | some networkId => some (tapName vmid networkId)

theorem tap_rewritten (vmid : String) (net net' : NetConfig)
    (h : rewriteNetConfig vmid net = .ok net') : net'.tap = assignedTap vmid net := by
  unfold rewriteNetConfig at h
  unfold assignedTap
  cases hid : net.id.bind (Text.stripPrefix "net://") with
  | none =>
    rw [hid] at h
    rw [← Except.ok.inj h]
  | some networkId =>
    rw [hid] at h
    dsimp only at h
    split at h
    · cases h
    · rw [deterministicTapName_eq] at h
      rw [← Except.ok.inj h]

/-- An id that the transform takes is changed in case only. -/
theorem suffixOf_rewritten {vmid : String} {network : Network} {net : NetConfig}
    (h : rewriteNetConfig vmid (networkToNet network) = .ok net) :
    suffixOf network.id = (network.id.toList.map Char.toLower).rtake 4 := by
  have hid : (networkToNet network).id.bind (Text.stripPrefix "net://") = some network.id :=
    Text.stripPrefix_append "net://" network.id
  have hvalid : validateNetworkId network.id = .ok () := by
    unfold rewriteNetConfig at h
    rw [hid] at h
    dsimp only at h
    cases hvalidate : validateNetworkId network.id with
    | ok => rfl
    | error error =>
      rw [hvalidate] at h
      cases h
  have hallowed : network.id.toList.all (fun c => c.isAlphanum || c == '-' || c == '_') = true := by
    unfold validateNetworkId at hvalid
    split at hvalid
    · cases hvalid
    · split at hvalid
      · assumption
      · cases hvalid
  rw [suffixOf, sanitizeComponent]
  congr 1
  apply List.map_congr_left
  intro c hc
  exact if_pos (List.all_eq_true.mp hallowed c hc)

end NetworkTransform

open NetworkTransform

theorem rewriteAll_eq_ok {vmid : String} {config config' : VmConfig}
    (h : rewriteAll vmid config = .ok config') :
    (config.net.getD []).mapM (rewriteNetConfig vmid) = .ok (config'.net.getD []) := by
  obtain ⟨hnet, rfl⟩ | ⟨nets, nets', hnet, hnets, rfl⟩ := rewriteAll_cases h
  · rw [hnet]
    rfl
  · rw [hnet]
    exact hnets

theorem taps_distinct_iff {vmid : String} {manifest : VmManifest} {config config' : VmConfig}
    (hconfig : toVmConfig manifest = .ok config) (h : rewriteAll vmid config = .ok config') :
    ((config'.net.getD []).map NetConfig.tap).Nodup ↔
      (manifest.desired.networks.map fun network =>
        (network.id.toList.map Char.toLower).rtake 4).Nodup := by
  have hnets := rewriteAll_eq_ok h
  rw [(spec_of_toVmConfig hconfig).2.net, getD_nonEmpty] at hnets
  have htaps : (config'.net.getD []).map NetConfig.tap =
      manifest.desired.networks.map fun network => some (tapName vmid network.id) := by
    rw [Fallible.map_of_mapM_ok hnets (tap_rewritten vmid), List.map_map]
    apply List.map_congr_left
    intro network _
    simp [assignedTap, networkToNet, Text.stripPrefix_append]
  have hsuffix : ∀ network ∈ manifest.desired.networks,
      suffixOf network.id = (network.id.toList.map Char.toLower).rtake 4 := by
    intro network hmem
    obtain ⟨net, _, hnet⟩ := Fallible.exists_of_forall₂ (Fallible.mapM_eq_ok.mp hnets)
      (networkToNet network) (List.mem_map_of_mem hmem)
    exact suffixOf_rewritten hnet
  rw [htaps, List.Nodup, List.Nodup, List.pairwise_map, List.pairwise_map]
  apply List.Pairwise.iff_of_mem
  intro network network' hmem hmem'
  rw [← hsuffix network hmem, ← hsuffix network' hmem', ne_eq, Option.some.injEq, tapName_eq_iff]

/-- A manifest of the given networks, and nothing else of note. -/
def networkedManifest (ids : List String) : VmManifest where
  apiVersion := 1
  id := 5
  desired :=
    { metadata := ⟨"sample", .empty, .empty⟩
      compute := ⟨1, none, 512⟩
      storage := []
      networks := ids.map fun id => ⟨id, none⟩
      placement := ⟨none, .empty, []⟩
      boot := ⟨true, none, none, none⟩
      cloudInit := none
      vsock := none }
  observed := none

theorem translated_of_any (vmid : String) (manifest : VmManifest) (p : VmConfig → Bool)
    (h : ((toVmConfig manifest >>= rewriteAll vmid).toOption.any p) = true) :
    ∃ config config', toVmConfig manifest = .ok config ∧ rewriteAll vmid config = .ok config' ∧
      p config' = true := by
  cases hboth : toVmConfig manifest >>= rewriteAll vmid with
  | error error =>
    rw [hboth] at h
    cases h
  | ok config' =>
    rw [hboth] at h
    obtain ⟨config, hconfig, hrewrite⟩ := Fallible.bind_eq_ok.mp hboth
    exact ⟨config, config', hconfig, hrewrite, h⟩

theorem taps_distinct_iff_two_networks :
    ∃ config config', toVmConfig (networkedManifest ["guest-lan", "guest-wan"]) = .ok config ∧
      rewriteAll "01KPB9AMVWXC2D1PF4W6E7MHWT" config = .ok config' ∧
      ((config'.net.getD []).map NetConfig.tap).Nodup := by
  obtain ⟨config, config', hconfig, hrewrite, _⟩ := translated_of_any
    "01KPB9AMVWXC2D1PF4W6E7MHWT" (networkedManifest ["guest-lan", "guest-wan"]) (fun _ => true)
    (by decide +kernel)
  exact ⟨config, config', hconfig, hrewrite,
    (taps_distinct_iff hconfig hrewrite).mpr (by decide +kernel)⟩

/-- Two networks whose ids end alike: both interfaces are given one device. -/
theorem taps_collide :
    ∃ config config', toVmConfig (networkedManifest ["prod-net0", "test-net0"]) = .ok config ∧
      rewriteAll "01KPB9AMVWXC2D1PF4W6E7MHWT" config = .ok config' ∧
      (config'.net.getD []).map NetConfig.tap = [some "vmtap-mhwt-net0", some "vmtap-mhwt-net0"] ∧
      ¬ ((config'.net.getD []).map NetConfig.tap).Nodup := by
  obtain ⟨config, config', hconfig, hrewrite, htaps⟩ := translated_of_any
    "01KPB9AMVWXC2D1PF4W6E7MHWT" (networkedManifest ["prod-net0", "test-net0"])
    (fun config => (config.net.getD []).map NetConfig.tap =
      [some "vmtap-mhwt-net0", some "vmtap-mhwt-net0"]) (by decide +kernel)
  rw [decide_eq_true_eq] at htaps
  refine ⟨config, config', hconfig, hrewrite, htaps, ?_⟩
  rw [htaps]
  decide

end Odorobo
