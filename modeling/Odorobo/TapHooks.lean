import Odorobo.TapNames

/-! The networking hook attaches the TAP devices it finds in the configuration; it
looks for the same entries as the transform that names them. -/

namespace Odorobo

namespace NetworkProvisioningHook

/-- The devices of the entries that are managed here. -/
def tapNames (config : VmConfig) : List String :=
  (((config.net.getD []).filter fun net => net.id.any (Text.startsWith "net://")).filterMap
    NetConfig.tap)

end NetworkProvisioningHook

namespace NetworkTransform

/-- The network that an entry refers to. -/
def networkIdOf (net : NetConfig) : Option String := net.id.bind (Text.stripPrefix "net://")

/-- A lower-case letter, a digit, a dash or an underscore, all of them ASCII. -/
def inTapName (c : Char) : Bool := c.isLower || c.isDigit || c == '-' || c == '_'

structure WellFormedTap (name : String) : Prop where
  fits : Text.byteLength name.toList ≤ 15
  prefixed : Text.startsWith "vmtap-" name = true
  plain : name.toList.all inTapName = true

/-! The characters of a name. -/

theorem inTapName_toLower {c : Char} (h : c.isAlphanum = true) : inTapName c.toLower = true := by
  unfold Char.toLower
  split
  · next hupper =>
    have hge := UInt32.le_iff_toNat_le.mp hupper.1
    have hle := UInt32.le_iff_toNat_le.mp hupper.2
    have hA : 'A'.val.toNat = 65 := rfl
    have hZ : 'Z'.val.toNat = 90 := rfl
    have ha : 'a'.val.toNat = 97 := rfl
    have hz : 'z'.val.toNat = 122 := rfl
    have hgap : ('a'.val - 'A'.val).toNat = 32 := rfl
    have hsum : (c.val + ('a'.val - 'A'.val)).toNat = c.val.toNat + 32 := by
      rw [UInt32.toNat_add, hgap]
      omega
    have hrange : 'a'.val ≤ c.val + ('a'.val - 'A'.val) ∧
        c.val + ('a'.val - 'A'.val) ≤ 'z'.val := by
      rw [UInt32.le_iff_toNat_le, UInt32.le_iff_toNat_le, hsum]
      omega
    have hlower (hvalid : (c.val + ('a'.val - 'A'.val)).isValidChar) :
        Char.isLower ⟨c.val + ('a'.val - 'A'.val), hvalid⟩ = true :=
      Bool.and_eq_true_iff.mpr ⟨decide_eq_true hrange.1, decide_eq_true hrange.2⟩
    rw [inTapName, hlower]
    rfl
  · next hupper =>
    cases Bool.or_eq_true_iff.mp h with
    | inl halpha =>
      cases Bool.or_eq_true_iff.mp halpha with
      | inl hupper' => exact absurd (of_decide_eq_true hupper') hupper
      | inr hlower =>
        rw [inTapName, hlower]
        rfl
    | inr hdigit =>
      rw [inTapName, hdigit, Bool.or_true]
      rfl

theorem inTapName_sanitized (value : String) :
    ∀ c ∈ sanitizeComponent value, inTapName c = true := by
  intro c hc
  obtain ⟨d, _, rfl⟩ := List.mem_map.mp hc
  split
  · next hallowed =>
    simp only [Bool.or_eq_true, beq_iff_eq] at hallowed
    obtain (hword | rfl) | rfl := hallowed
    · exact inTapName_toLower hword
    · decide
    · decide
  · decide

theorem inTapName_suffixOf (value : String) : ∀ c ∈ suffixOf value, inTapName c = true := by
  intro c hc
  exact inTapName_sanitized value c (List.mem_of_mem_drop hc)

theorem wellFormed_tapName (vmid networkId : String) : WellFormedTap (tapName vmid networkId) where
  fits := by
    rw [tapName, String.toList_ofList]
    exact byteLength_joined vmid networkId
  prefixed := by
    have hpre : String.ofList (tapPrefix ++ ['-']) = "vmtap-" := by decide +kernel
    rw [tapName, List.append_assoc, List.append_assoc, String.ofList_append, hpre]
    exact Text.startsWith_append _ _
  plain := by
    have hpre : ∀ c ∈ tapPrefix, inTapName c = true :=
      List.all_eq_true.mp (by decide : tapPrefix.all inTapName = true)
    rw [tapName, String.toList_ofList, List.all_eq_true]
    exact forall_mem_joined hpre (by decide) (inTapName_suffixOf vmid)
      (inTapName_suffixOf networkId)

/-! What the transform does to one entry. -/

theorem rewriteNetConfig_eq_ok {vmid : String} {net net' : NetConfig}
    (h : rewriteNetConfig vmid net = .ok net') :
    net' = { net with tap := assignedTap vmid net } := by
  have htap := tap_rewritten vmid net net' h
  have hkept : net' = { net with tap := net'.tap } := by
    unfold rewriteNetConfig at h
    split at h
    · rw [← Except.ok.inj h]
    · split at h
      · cases h
      · split at h
        · cases h
        · rw [← Except.ok.inj h]
  rw [hkept, htap]

/-- A name that is given twice is the same. -/
theorem rewriteNetConfig_idem {vmid : String} {net net' : NetConfig}
    (h : rewriteNetConfig vmid net = .ok net') : rewriteNetConfig vmid net' = .ok net' := by
  have hnet := rewriteNetConfig_eq_ok h
  have hid : net'.id = net.id := by rw [hnet]
  unfold rewriteNetConfig at h ⊢
  rw [hid]
  split at h
  · rfl
  · split at h
    · cases h
    · split at h
      · cases h
      · rw [← Except.ok.inj h]

theorem kept_of_no_network {vmid : String} {net net' : NetConfig}
    (h : rewriteNetConfig vmid net = .ok net') (hid : networkIdOf net = none) : net' = net := by
  rw [rewriteNetConfig_eq_ok h, assignedTap]
  rw [networkIdOf] at hid
  rw [hid]

/-! What it does to a configuration. -/

theorem rewriteAll_kept {vmid : String} {config config' : VmConfig}
    (h : rewriteAll vmid config = .ok config') :
    config' = { config with net := config'.net } ∧ config'.net.isSome = config.net.isSome := by
  obtain ⟨_, rfl⟩ | ⟨nets, nets', hnet, _, rfl⟩ := rewriteAll_cases h
  · exact ⟨rfl, rfl⟩
  · rw [hnet]
    exact ⟨rfl, rfl⟩

theorem rewriteAll_idem {vmid : String} {config config' : VmConfig}
    (h : rewriteAll vmid config = .ok config') : rewriteAll vmid config' = .ok config' := by
  obtain ⟨_, rfl⟩ | ⟨nets, nets', _, hnets, rfl⟩ := rewriteAll_cases h
  · exact h
  · have hagain := Fallible.mapM_idem (fun _ _ => rewriteNetConfig_idem) hnets
    rw [rewriteAll]
    dsimp only
    rw [hagain]
    rfl

end NetworkTransform

open NetworkTransform NetworkProvisioningHook

/-- The hook and the transform look for the same entries. -/
theorem managed_iff (net : NetConfig) :
    net.id.any (Text.startsWith "net://") = (networkIdOf net).isSome := by
  cases hid : net.id with
  | none => rw [networkIdOf, hid, Option.any_none, Option.bind_none, Option.isSome_none]
  | some id =>
    rw [networkIdOf, hid, Option.any_some, Option.bind_some, Text.stripPrefix]
    split
    · assumption
    · next hnot => exact eq_false_of_ne_true hnot

theorem tapNames_rewritten {vmid : String} {config config' : VmConfig}
    (h : rewriteAll vmid config = .ok config') :
    tapNames config' = ((config.net.getD []).filterMap networkIdOf).map (tapName vmid) := by
  have hnets : config'.net.getD [] =
      (config.net.getD []).map fun net => { net with tap := assignedTap vmid net } := by
    have hall := Fallible.map_of_mapM_ok (rewriteAll_eq_ok h) fun _ _ => rewriteNetConfig_eq_ok
    exact (List.map_id _).symm.trans hall
  rw [tapNames, hnets]
  generalize config.net.getD [] = nets
  induction nets with
  | nil => rfl
  | cons net nets ih =>
    have hmanaged := managed_iff { net with tap := assignedTap vmid net }
    change _ = (networkIdOf net).isSome at hmanaged
    cases hid : networkIdOf net with
    | none =>
      rw [hid, Option.isSome_none] at hmanaged
      rw [List.map_cons, List.filter_cons, hmanaged, if_neg Bool.false_ne_true,
        List.filterMap_cons_none hid]
      exact ih
    | some networkId =>
      have htap : NetConfig.tap { net with tap := assignedTap vmid net } =
          some (tapName vmid networkId) := by
        rw [networkIdOf] at hid
        rw [assignedTap, hid]
      rw [hid, Option.isSome_some] at hmanaged
      rw [List.map_cons, List.filter_cons, hmanaged, if_pos rfl, List.filterMap_cons_some htap,
        List.filterMap_cons_some hid, List.map_cons, ih]

/-- The transform gives every network reference its device and changes nothing else,
and the hook finds exactly these devices. -/
theorem tap_names_agree {vmid : String} {config config' : VmConfig}
    (h : rewriteAll vmid config = .ok config') :
    (∀ networkId, (deterministicTapName vmid networkId).isSome = true) ∧
      (config' = { config with net := config'.net } ∧ config'.net.isSome = config.net.isSome ∧
        List.Forall₂ (fun net net' => net' = { net with tap := net'.tap } ∧
          (networkIdOf net = none → net' = net)) (config.net.getD []) (config'.net.getD [])) ∧
      rewriteAll vmid config' = .ok config' ∧
      (tapNames config').map some =
        ((config.net.getD []).filterMap networkIdOf).map (deterministicTapName vmid) ∧
      ∀ name ∈ tapNames config', WellFormedTap name := by
  have hnames := tapNames_rewritten h
  refine ⟨?_, ⟨(rewriteAll_kept h).1, (rewriteAll_kept h).2, ?_⟩, rewriteAll_idem h, ?_, ?_⟩
  · intro networkId
    rw [deterministicTapName_eq, Option.isSome_some]
  · refine (Fallible.mapM_eq_ok.mp (rewriteAll_eq_ok h)).imp fun net net' hnet => ?_
    refine ⟨?_, kept_of_no_network hnet⟩
    rw [rewriteNetConfig_eq_ok hnet]
  · rw [hnames, List.map_map]
    apply List.map_congr_left
    intro networkId _
    exact (deterministicTapName_eq vmid networkId).symm
  · intro name hname
    rw [hnames] at hname
    obtain ⟨networkId, _, rfl⟩ := List.mem_map.mp hname
    exact wellFormed_tapName vmid networkId

/-- A VM id that is not ASCII, one network reference and one foreign entry. -/
theorem tap_names_agree_foreign :
    let config := { VmConfig.default with
      net := some [⟨some "_net1", none, some "vmtap0"⟩, ⟨some "net://Guest-LAN", none, none⟩] }
    let config' := { VmConfig.default with
      net := some [⟨some "_net1", none, some "vmtap0"⟩,
        ⟨some "net://Guest-LAN", none, some "vmtap--m-1--lan"⟩] }
    rewriteAll "vüm-1" config = .ok config' ∧ tapNames config' = ["vmtap--m-1--lan"] ∧
      ∀ name ∈ tapNames config', WellFormedTap name := by
  have hrewritten : rewriteAll "vüm-1" { VmConfig.default with
      net := some [⟨some "_net1", none, some "vmtap0"⟩, ⟨some "net://Guest-LAN", none, none⟩] } =
      .ok { VmConfig.default with
        net := some [⟨some "_net1", none, some "vmtap0"⟩,
          ⟨some "net://Guest-LAN", none, some "vmtap--m-1--lan"⟩] } := by
    decide +kernel
  exact ⟨hrewritten, by decide +kernel, (tap_names_agree hrewritten).2.2.2.2⟩

end Odorobo
