import Odorobo.Separator
import Odorobo.StorageDrivers

/-! The device paths of iSCSI targets, read back, and where the LUN comes from.
A path is its lossy text: an invalid byte is never part of a separator. -/

namespace Odorobo

namespace Text

/-- `Path::file_name` on Unix. -/
def fileName (path : String) : Option String :=
  ((split '/' path).filter fun part => part != "" && part != ".").getLast?.filter (· != "..")

def splitOnce (sep s : String) : Option (String × String) :=
  (Separator.splitOnce sep.toList s.toList).map fun cut => (.ofList cut.1, .ofList cut.2)

def rsplitOnce (sep s : String) : Option (String × String) :=
  (Separator.rsplitOnce sep.toList s.toList).map fun cut => (.ofList cut.1, .ofList cut.2)

example : fileName "/dev/disk//by-path/." = some "by-path" ∧ fileName "/dev/.." = none ∧
    splitOnce "--" "a--b--c" = some ("a", "b--c") ∧
    rsplitOnce "--" "a--b--c" = some ("a--b", "c") := by
  decide +kernel

theorem fileName_append {name : String} (hname : '/' ∉ name.toList)
    (hplain : name ≠ "" ∧ name ≠ "." ∧ name ≠ "..") (dir : String) :
    fileName (dir ++ "/" ++ name) = some name := by
  have hparts : split '/' (dir ++ "/" ++ name) = split '/' dir ++ [name] := by
    rw [split, String.toList_append, String.toList_append, List.append_assoc]
    change List.map _ ((dir.toList ++ '/' :: name.toList).splitOn '/') = _
    rw [List.splitOn_append_cons_self, List.splitOn_eq_singleton hname, List.map_append, split,
      List.map_singleton, String.ofList_toList]
  have hkept : [name].filter (fun part => part != "" && part != ".") = [name] := by
    simp [hplain.1, hplain.2.1]
  rw [fileName, hparts, List.filter_append, hkept, List.getLast?_concat, Option.filter_some,
    if_pos (by simpa using hplain.2.2)]

/-! Decimal numerals. -/

/-- The digits of a numeral: a plus sign may come first where signs are taken. -/
def digitsOf : Bool → List Char → List Char
  | true, '+' :: digits => digits
  | _, digits => digits

structure Numeral (signed : Bool) (text : String) (n : Nat) : Prop where
  nonempty : digitsOf signed text.toList ≠ []
  digits : (digitsOf signed text.toList).all Char.isDigit = true
  value : Nat.ofDigitChars 10 (digitsOf signed text.toList) 0 = n

instance decidableNumeral (signed : Bool) (text : String) (n : Nat) :
    Decidable (Numeral signed text n) :=
  decidable_of_iff
    (digitsOf signed text.toList ≠ [] ∧ (digitsOf signed text.toList).all Char.isDigit = true ∧
      Nat.ofDigitChars 10 (digitsOf signed text.toList) 0 = n)
    ⟨fun h => ⟨h.1, h.2.1, h.2.2⟩, fun h => ⟨h.nonempty, h.digits, h.value⟩⟩

theorem digitsOf_of_isDigit {cs : List Char} (h : cs.all Char.isDigit = true) (signed : Bool) :
    digitsOf signed cs = cs := by
  unfold digitsOf
  split
  · cases h
  · rfl

/-- A numeral without its sign is one where signs are taken. -/
theorem Numeral.signed {signed : Bool} {text : String} {n : Nat} (h : Numeral signed text n) :
    Numeral true text n := by
  cases signed with
  | true => exact h
  | false =>
    have hdigits : digitsOf false text.toList = text.toList := rfl
    have hnonempty := hdigits ▸ h.nonempty
    have hall := hdigits ▸ h.digits
    have hvalue := hdigits ▸ h.value
    have hsame := digitsOf_of_isDigit hall true
    exact ⟨hsame.symm ▸ hnonempty, hsame.symm ▸ hall, hsame.symm ▸ hvalue⟩

theorem parseU32_eq (text : String) :
    parseU32 text =
      if digitsOf true text.toList ≠ [] ∧ (digitsOf true text.toList).all Char.isDigit then
        if h : Nat.ofDigitChars 10 (digitsOf true text.toList) 0 < 2 ^ 32 then some ⟨_, h⟩
        else none
      else none := by
  unfold parseU32 digitsOf
  generalize text.toList = cs
  split
  · rfl
  · next hplus =>
    split
    · next rest _ => exact absurd rfl (hplus rest)
    · rfl

/-- What is parsed, and as what. -/
theorem parseU32_eq_some_iff {text : String} {n : U32} :
    parseU32 text = some n ↔ Numeral true text n.val := by
  rw [parseU32_eq]
  constructor
  · intro h
    split at h
    · next hall =>
      split at h
      · refine ⟨hall.1, hall.2, ?_⟩
        rw [← Option.some.inj h]
      · cases h
    · cases h
  · rintro ⟨hnonempty, hall, hvalue⟩
    have hlt := n.isLt
    rw [← hvalue] at hlt
    rw [if_pos ⟨hnonempty, hall⟩, dif_pos hlt]
    exact congrArg some (Fin.ext hvalue)

/-! The decimal text of a number. -/

theorem isDigit_toString (n : Nat) : (toString n).toList.all Char.isDigit = true := by
  rw [Nat.toString_eq_repr, Nat.toList_repr, List.all_eq_true]
  intro c hc
  exact Nat.isDigit_of_mem_toDigits (by decide) (by decide) hc

theorem toString_ne_nil (n : Nat) : (toString n).toList ≠ [] := by
  rw [Nat.toString_eq_repr, Nat.toList_repr]
  exact Nat.toDigits_ne_nil

theorem numeral_toString (signed : Bool) (n : Nat) : Numeral signed (toString n) n := by
  have hdigits := digitsOf_of_isDigit (isDigit_toString n) signed
  refine ⟨?_, hdigits.symm ▸ isDigit_toString n, ?_⟩
  · rw [hdigits]
    exact toString_ne_nil n
  · rw [hdigits, Nat.toString_eq_repr, Nat.toList_repr]
    exact Nat.ofDigitChars_ten_toDigits

/-- A character that is no digit is in no printed number. -/
theorem not_mem_toString {c : Char} (hc : c.isDigit = false) (n : Nat) :
    c ∉ (toString n).toList := by
  intro hmem
  have hdigit := List.all_eq_true.mp (isDigit_toString n) c hmem
  rw [hc] at hdigit
  cases hdigit

/-- A default of zero is a number read from the text only where the text is one. -/
theorem numeral_getD_iff {signed : Bool} {text : String} :
    Numeral signed text ((parseU32 text).getD 0).val ↔ ∃ n < 2 ^ 32, Numeral signed text n := by
  constructor
  · intro h
    exact ⟨_, Fin.isLt _, h⟩
  · rintro ⟨n, hlt, h⟩
    have hparsed : parseU32 text = some ⟨n, hlt⟩ := parseU32_eq_some_iff.mpr h.signed
    rw [hparsed]
    exact h

end Text

namespace ISCSITarget

def tryFrom (path : String) : Except String ISCSITarget :=
  match Text.stripPrefix "ip-" ((Text.fileName path).getD "") with
  | none => .error ("Device path does not start with 'ip-': " ++ path)
  | some stripped =>
    match Text.splitOnce "-iscsi-" stripped with
    | none => .error ("Failed to parse iSCSI target from device path: " ++ path)
    | some (hostPart, rest) =>
      let parts := (Text.rsplitOnce "-lun-" rest).getD (rest, "0")
      .ok { host := hostPart, iqn := parts.1, lun := (Text.parseU32 parts.2).getD 0 }

/-! The text that the LUN is taken from, empty where there is none. -/

def lunOfUrl (uri : Url) : String :=
  let lunStr := (uri.pathSegments.getD []).getD 1 ""
  (Text.stripPrefix "lun" lunStr).getD lunStr

def lunOfPath (path : String) : String :=
  (((Text.stripPrefix "ip-" ((Text.fileName path).getD "")).bind
    (Text.splitOnce "-iscsi-")).bind fun cut => Text.rsplitOnce "-lun-" cut.2).elim "" Prod.snd

theorem lun_from (uri : Url) : («from» uri).lun = (Text.parseU32 (lunOfUrl uri)).getD 0 := by
  rw [«from», lunOfUrl]

/-- A successful reading of a path, by the text of its LUN. -/
theorem lun_tryFrom {path : String} {target : ISCSITarget} (h : tryFrom path = .ok target) :
    target.lun = (Text.parseU32 (lunOfPath path)).getD 0 := by
  unfold tryFrom at h
  unfold lunOfPath
  cases hstrip : Text.stripPrefix "ip-" ((Text.fileName path).getD "") with
  | none =>
    rw [hstrip] at h
    cases h
  | some stripped =>
    rw [hstrip] at h
    dsimp only at h
    rw [Option.bind_some]
    cases hcut : Text.splitOnce "-iscsi-" stripped with
    | none =>
      rw [hcut] at h
      cases h
    | some cut =>
      rw [hcut] at h
      dsimp only at h
      rw [← Except.ok.inj h, Option.bind_some]
      cases Text.rsplitOnce "-lun-" cut.2 with
      | none =>
        have hzero : Text.parseU32 "0" = some 0 := by decide +kernel
        have hempty : Text.parseU32 "" = none := by decide +kernel
        rw [Option.getD_none, Option.elim_none, hzero, hempty]
        rfl
      | some parts => rfl

/-- The LUN is the number that was written exactly where a number that fits was
written, whether or not a plus sign may come before it. -/
theorem lun_is_written_iff (signed : Bool) :
    (∀ uri : Url, Text.Numeral signed (lunOfUrl uri) («from» uri).lun.val ↔
      ∃ n < 2 ^ 32, Text.Numeral signed (lunOfUrl uri) n) ∧
    ∀ path target, tryFrom path = .ok target →
      (Text.Numeral signed (lunOfPath path) target.lun.val ↔
        ∃ n < 2 ^ 32, Text.Numeral signed (lunOfPath path) n) := by
  constructor
  · intro uri
    rw [lun_from]
    exact Text.numeral_getD_iff
  · intro path target h
    rw [lun_tryFrom h]
    exact Text.numeral_getD_iff

/-- The URI of a target, as it is written after the scheme. -/
def uriOf (rest : String) : Url := PlainUrl.afterScheme "iscsi" rest.toList

theorem made_uriOf (rest : String) : PlainUrl.crate.Made (uriOf rest) := by
  refine .parsed ("iscsi" ++ "://" ++ rest) _ ?_
  change PlainUrl.parseChars (_ : String).toList = _
  rw [String.toList_append, String.toList_append]
  exact PlainUrl.parseChars_scheme rest.toList (Or.inr (Or.inr rfl))

theorem lun_is_written_boot :
    («from» (uriOf "target.example.com/iqn.2026-03.com.fyrastack:boot/lun1")).lun = 1 ∧
      tryFrom "/dev/disk/by-path/ip-192.168.1.1:3260-iscsi-iqn.2026-03.com.fyrastack:boot-lun-2" =
        .ok ⟨"192.168.1.1:3260", "iqn.2026-03.com.fyrastack:boot", 2⟩ ∧
      Text.Numeral false (lunOfPath
        "/dev/disk/by-path/ip-192.168.1.1:3260-iscsi-iqn.2026-03.com.fyrastack:boot-lun-2") 2 := by
  have hread : tryFrom
      "/dev/disk/by-path/ip-192.168.1.1:3260-iscsi-iqn.2026-03.com.fyrastack:boot-lun-2" =
        .ok ⟨"192.168.1.1:3260", "iqn.2026-03.com.fyrastack:boot", 2⟩ := by
    decide +kernel
  refine ⟨by decide +kernel, hread, ?_⟩
  exact ((lun_is_written_iff false).2 _ _ hread).mpr ⟨2, by decide, by decide +kernel⟩

/-- A number out of range and a text that is none: the LUN is zero all the same. -/
theorem lun_replaced :
    let uri := uriOf "target.example.com/iqn.2026-03.com.fyrastack:boot/4294967296"
    let path := "/dev/disk/by-path/ip-192.168.1.1:3260-iscsi-iqn.2026-03.com.fyrastack:boot-lun-x"
    («from» uri).lun = 0 ∧ Text.Numeral false (lunOfUrl uri) 4294967296 ∧
      ¬ Text.Numeral true (lunOfUrl uri) («from» uri).lun.val ∧
      (tryFrom path).toOption.map ISCSITarget.lun = some 0 ∧
      ¬ Text.Numeral true (lunOfPath path) 0 := by
  decide +kernel

/-! A device path is cut where it was joined. -/

/-- What follows the host in the name of a device. -/
def afterHost (target : ISCSITarget) : String :=
  target.iqn ++ "-lun-" ++ toString target.lun.val

theorem toDevicePath_eq (target : ISCSITarget) :
    target.toDevicePath =
      "/dev/disk/by-path" ++ "/" ++ ("ip-" ++ (target.host ++ "-iscsi-" ++ target.afterHost)) := by
  have hdir : "/dev/disk/by-path/ip-" = "/dev/disk/by-path" ++ "/" ++ "ip-" := by
    decide +kernel
  have hgroups : ∀ base slash ip host iscsi iqn lun number : String,
      base ++ slash ++ ip ++ host ++ iscsi ++ iqn ++ lun ++ number =
        base ++ slash ++ (ip ++ (host ++ iscsi ++ (iqn ++ lun ++ number))) := by
    simp only [String.append_assoc, implies_true]
  unfold toDevicePath
  rw [hdir]
  exact hgroups _ _ _ _ _ _ _ _

theorem fileName_toDevicePath {target : ISCSITarget} (hhost : '/' ∉ target.host.toList)
    (hiqn : '/' ∉ target.iqn.toList) :
    Text.fileName target.toDevicePath =
      some ("ip-" ++ (target.host ++ "-iscsi-" ++ target.afterHost)) := by
  have hlun := Text.not_mem_toString (c := '/') rfl target.lun.val
  rw [toDevicePath_eq]
  apply Text.fileName_append
  · simp only [String.toList_append, afterHost, List.mem_append, not_or]
    exact ⟨by decide, ⟨⟨hhost, by decide⟩, ⟨hiqn, by decide⟩, hlun⟩⟩
  · refine ⟨?_, ?_, ?_⟩
    all_goals
      intro h
      have hchars := congrArg String.toList h
      rw [String.toList_append] at hchars
      simp at hchars

/-- The separator after the host is found behind it: the host ends with a digit. -/
theorem splitOnce_device {target : ISCSITarget} {name : String} {port : Nat}
    (hhost : target.host = name ++ ":" ++ toString port)
    (hname : ¬ "-iscsi-".toList <:+: name.toList) :
    Text.splitOnce "-iscsi-" (target.host ++ "-iscsi-" ++ target.afterHost) =
      some (target.host, target.afterHost) := by
  obtain ⟨digits, d, hdigits⟩ :=
    (List.eq_nil_or_concat' _).resolve_left (Text.toString_ne_nil port)
  have hfree : ∀ c ∈ digits ++ [d], c ∉ "-iscsi-".toList := by
    intro c hc hmem
    have hdigit := List.all_eq_true.mp (Text.isDigit_toString port) c (hdigits ▸ hc)
    have hnone : "-iscsi-".toList.all (fun c => !c.isDigit) = true := by decide
    have hnot := List.all_eq_true.mp hnone c hmem
    rw [hdigit] at hnot
    cases hnot
  have hfront : ¬ "-iscsi-".toList <:+: name.toList ++ ':' :: digits := by
    rw [Separator.infix_append_cons_iff (by decide), not_or]
    refine ⟨hname, ?_⟩
    intro hfound
    have hhead : '-' ∈ "-iscsi-".toList := by decide
    have hinside := hfound.subset hhead
    exact hfree '-' (List.mem_append_left _ hinside) hhead
  have hd := hfree d (List.mem_append_right _ List.mem_cons_self)
  have hcut := Separator.splitOnce_append hd hfront target.afterHost.toList
  have hchars : name.toList ++ ':' :: digits ++ [d] = target.host.toList := by
    rw [hhost, String.toList_append, String.toList_append, hdigits]
    simp
  rw [hchars] at hcut
  rw [Text.splitOnce, String.toList_append, String.toList_append, hcut, Option.map_some,
    String.ofList_toList, String.ofList_toList]

/-- A host name with the separator in it is cut before its port. -/
theorem splitOnce_device_ne {target : ISCSITarget} {name : String} {port : Nat}
    {cut : String × String} (hhost : target.host = name ++ ":" ++ toString port)
    (hfound : "-iscsi-".toList <:+: name.toList)
    (hcut : Text.splitOnce "-iscsi-" (target.host ++ "-iscsi-" ++ target.afterHost) = some cut) :
    cut.1 ≠ target.host := by
  intro hsame
  obtain ⟨parts, hparts, rfl⟩ := Option.map_eq_some_iff.mp hcut
  rw [String.toList_append, String.toList_append, hhost, String.toList_append,
    String.toList_append, List.append_assoc, List.append_assoc, List.append_assoc] at hparts
  have hshort := Separator.length_of_splitOnce hfound hparts
  have hlength := congrArg (fun s : String => s.toList.length) (hsame.trans hhost)
  simp only [String.toList_append, String.toList_ofList, List.length_append] at hlength
  have hcolon : ":".toList.length = 1 := rfl
  omega

theorem rsplitOnce_afterHost (target : ISCSITarget) :
    Text.rsplitOnce "-lun-" target.afterHost =
      some (target.iqn, toString target.lun.val) := by
  have hdash : '-' ∉ (toString target.lun.val).toList := Text.not_mem_toString rfl target.lun.val
  have hsep : "-lun-".toList = "-lun".toList ++ ['-'] := by decide
  have hcut := @Separator.rsplitOnce_append _ _ _ "-lun".toList _ _ hdash target.iqn.toList
  rw [Text.rsplitOnce, afterHost, String.toList_append, String.toList_append, hsep, hcut,
    Option.map_some, String.ofList_toList, String.ofList_toList]

theorem round_trip_iff {target : ISCSITarget} {name : String} {port : Nat}
    (hhost : target.host = name ++ ":" ++ toString port) (hname : '/' ∉ name.toList)
    (hiqn : '/' ∉ target.iqn.toList) :
    tryFrom target.toDevicePath = .ok target ↔ ¬ "-iscsi-".toList <:+: name.toList := by
  have hslash : '/' ∉ target.host.toList := by
    rw [hhost]
    simp only [String.toList_append, List.mem_append, not_or]
    exact ⟨⟨hname, by decide⟩, Text.not_mem_toString rfl port⟩
  unfold tryFrom
  rw [fileName_toDevicePath hslash hiqn, Option.getD_some, Text.stripPrefix_append]
  dsimp only
  constructor
  · intro h hfound
    cases hcut : Text.splitOnce "-iscsi-" (target.host ++ "-iscsi-" ++ target.afterHost) with
    | none =>
      rw [hcut] at h
      cases h
    | some cut =>
      rw [hcut] at h
      have hsame : cut.1 = target.host := congrArg ISCSITarget.host (Except.ok.inj h)
      exact splitOnce_device_ne hhost hfound hcut hsame
  · intro hfree
    have hlun : Text.parseU32 (toString target.lun.val) = some target.lun :=
      Text.parseU32_eq_some_iff.mpr (Text.numeral_toString true target.lun.val)
    rw [splitOnce_device hhost hfree]
    dsimp only
    rw [rsplitOnce_afterHost, Option.getD_some]
    dsimp only
    rw [hlun, Option.getD_some]

end ISCSITarget

/-- The hosts of the URLs that a crate gives out. -/
def UrlCrate.SlashFreeHosts (crate : UrlCrate) : Prop :=
  ∀ url, crate.Made url → ∀ host, url.hostStr = some host → '/' ∉ host.toList

theorem PlainUrl.slashFreeHosts : PlainUrl.crate.SlashFreeHosts := by
  intro url made host hhost hslash
  rw [← (readable_of_made made).2] at hhost
  rw [← Option.some.inj hhost, String.toList_ofList] at hslash
  have hinside := List.mem_takeWhile_imp hslash
  cases hinside

namespace ISCSITarget

/-- The target of a URL is read back from its device path exactly when the host does
not have the separator that follows it. -/
theorem device_path_round_trip_iff {crate : UrlCrate} (hosts : crate.SlashFreeHosts) {uri : Url}
    (made : crate.Made uri) {host iqn lun : String} (hhost : uri.hostStr = some host)
    (hpath : uri.pathSegments = some [iqn, lun]) :
    tryFrom («from» uri).toDevicePath = .ok («from» uri) ↔
      ¬ "-iscsi-".toList <:+: host.toList := by
  have hjoined : ∃ port : Nat, («from» uri).host = host ++ ":" ++ toString port := by
    unfold «from»
    rw [hhost]
    exact ⟨_, rfl⟩
  have hiqn : («from» uri).iqn = iqn := by
    unfold «from»
    rw [hpath]
    rfl
  have hsegment : '/' ∉ iqn.toList := by
    obtain ⟨path, _, hparts⟩ := Option.map_eq_some_iff.mp hpath
    have hmem : iqn ∈ Text.split '/' path := hparts ▸ List.mem_cons_self
    obtain ⟨part, hpart, rfl⟩ := List.mem_map.mp hmem
    rw [String.toList_ofList]
    exact Separator.not_mem_of_mem_splitOn hpart
  obtain ⟨port, hport⟩ := hjoined
  exact round_trip_iff hport (hosts uri made host hhost) (hiqn ▸ hsegment)

theorem device_path_round_trip_dashes :
    let uri := uriOf "target.example.com/iqn.2026-03.com.fyrastack:test-lun-1-iscsi-disk/3"
    tryFrom («from» uri).toDevicePath = .ok («from» uri) := by
  have hhost : (uriOf "target.example.com/iqn.2026-03.com.fyrastack:test-lun-1-iscsi-disk/3").hostStr
      = some "target.example.com" := by decide +kernel
  have hpath :
      (uriOf "target.example.com/iqn.2026-03.com.fyrastack:test-lun-1-iscsi-disk/3").pathSegments
        = some ["iqn.2026-03.com.fyrastack:test-lun-1-iscsi-disk", "3"] := by decide +kernel
  exact (device_path_round_trip_iff PlainUrl.slashFreeHosts (made_uriOf _) hhost hpath).mpr
    (by decide +kernel)

/-- A host with the separator in it is cut short, and the rest goes to the name. -/
theorem device_path_misread :
    let uri := uriOf "san-iscsi-1.example.com/iqn.2026-03.com.fyrastack:boot/0"
    uri.hostStr = some "san-iscsi-1.example.com" ∧
      uri.pathSegments = some ["iqn.2026-03.com.fyrastack:boot", "0"] ∧
      tryFrom («from» uri).toDevicePath =
        .ok ⟨"san", "1.example.com:3260-iscsi-iqn.2026-03.com.fyrastack:boot", 0⟩ ∧
      tryFrom («from» uri).toDevicePath ≠ .ok («from» uri) := by
  decide +kernel

end ISCSITarget

end Odorobo
