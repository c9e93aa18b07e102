import Mathlib.Data.List.Nodup
import Odorobo.Fallible
import Odorobo.StorageDrivers

/-! The device list of `rbd` as it is printed and as it is read. A row is cut at
white space and told apart by the number of its columns. What comes back is the
pool and the name of the image, without the namespace and the snapshot. -/

namespace Odorobo

/-- A name that shows up as one column. -/
abbrev Word := { s : String // s ≠ "" ∧ s.toList.any Text.isWhitespace = false }

theorem Word.plain (word : Word) : ∀ c ∈ word.val.toList, Text.isWhitespace c = false :=
  fun c hc => Bool.eq_false_iff.mpr (List.any_eq_false.mp word.property.2 c hc)

structure MappedDevice where
  id : Word
  pool : Word
  namespaceName : Option Word
  image : Word
  snapshot : Option Word
  device : Word
  isDevice : Text.startsWith "/dev/" device.val = true

def dash : Word := ⟨"-", by decide⟩

namespace MappedDevice

/-- The columns of a row; the namespace column is blank where there is none. -/
def columns (row : MappedDevice) : List Word :=
  [row.id, row.pool] ++ row.namespaceName.toList ++
    [row.image, row.snapshot.getD dash, row.device]

/-- The image as it is named inside its pool. -/
def imageSpec (row : MappedDevice) : String :=
  row.namespaceName.elim row.image.val fun name => name.val ++ "/" ++ row.image.val

/-- The row maps exactly this image, not a snapshot of it. -/
structure Maps (row : MappedDevice) (image : RbdImage) : Prop where
  pool : row.pool.val = image.pool
  image : row.imageSpec = image.image
  snapshot : row.snapshot = none

/-- The path that is read from the row. -/
def readPath (row : MappedDevice) : String := row.pool.val ++ "/" ++ row.image.val

end MappedDevice

/-- Columns with runs of spaces between them, and maybe some at the end. -/
inductive Spaced : List Word → List Char → Prop where
  | last (word : Word) (pad : Nat) : Spaced [word] (word.val.toList ++ List.replicate pad ' ')
  | next (word : Word) (gap : Nat) {words : List Word} {line : List Char} :
    Spaced words line →
      Spaced (word :: words) (word.val.toList ++ List.replicate (gap + 1) ' ' ++ line)

/-- A row as it is printed, with any column widths. -/
def Prints (row : MappedDevice) (line : List Char) : Prop :=
  ∃ pad body, Spaced row.columns body ∧ line = List.replicate pad ' ' ++ body

/-- The lines of a listing, with or without a newline after the last one. -/
def listing (header : List Char) (lines : List (List Char)) (final : Bool) : String :=
  .ofList (['\n'].intercalate ((header :: lines) ++ if final then [[]] else []))

/-! Words. -/

namespace Text

theorem wordsFrom_replicate (pad : Nat) (cs : List Char) :
    wordsFrom [] (List.replicate pad ' ' ++ cs) = wordsFrom [] cs := by
  induction pad with
  | zero => rfl
  | succ pad ih => exact ih

theorem wordsFrom_append {token : List Char} (h : ∀ c ∈ token, isWhitespace c = false)
    (cs : List Char) : ∀ word, wordsFrom word (token ++ cs) = wordsFrom (word ++ token) cs := by
  induction token with
  | nil => simp
  | cons c token ih =>
    intro word
    have hc := h c List.mem_cons_self
    rw [List.cons_append, wordsFrom, hc, if_neg Bool.false_ne_true,
      ih fun d hd => h d (List.mem_cons_of_mem c hd), List.append_assoc, List.singleton_append]

theorem wordsFrom_gap {word : List Char} (h : word ≠ []) (gap : Nat) (cs : List Char) :
    wordsFrom word (List.replicate (gap + 1) ' ' ++ cs) = word :: wordsFrom [] cs := by
  rw [List.replicate_succ, List.cons_append, wordsFrom]
  simp [h, wordsFrom_replicate, show isWhitespace ' ' = true from rfl]

theorem wordsFrom_pad {word : List Char} (h : word ≠ []) (pad : Nat) :
    wordsFrom word (List.replicate pad ' ') = [word] := by
  cases pad with
  | zero => simp [wordsFrom, h]
  | succ pad =>
    have hgap := wordsFrom_gap h pad []
    rw [List.append_nil] at hgap
    exact hgap

end Text

theorem Word.toList_ne_nil (word : Word) : word.val.toList ≠ [] := by
  intro hnil
  exact word.property.1 (String.toList_injective hnil)

theorem wordsFrom_spaced {words : List Word} {line : List Char} (h : Spaced words line) :
    Text.wordsFrom [] line = words.map fun word => word.val.toList := by
  induction h with
  | last word pad =>
    rw [Text.wordsFrom_append (Word.plain word), List.nil_append,
      Text.wordsFrom_pad (Word.toList_ne_nil word)]
    rfl
  | next word gap _ ih =>
    rw [List.append_assoc, Text.wordsFrom_append (Word.plain word), List.nil_append,
      Text.wordsFrom_gap (Word.toList_ne_nil word), ih, List.map_cons]

/-- The columns come back as they were printed. -/
theorem splitWhitespace_of_prints {row : MappedDevice} {line : List Char} (h : Prints row line) :
    Text.splitWhitespace line = row.columns.map Subtype.val := by
  obtain ⟨pad, body, hspaced, rfl⟩ := h
  rw [Text.splitWhitespace, Text.wordsFrom_replicate, wordsFrom_spaced hspaced, List.map_map]
  apply List.map_congr_left
  intro word _
  exact String.ofList_toList

theorem rbdLine_of_prints {row : MappedDevice} {line : List Char} (h : Prints row line) :
    rbdLine line = some (row.readPath, row.device.val) := by
  rw [rbdLine, splitWhitespace_of_prints h, MappedDevice.columns]
  cases row.namespaceName with
  | none => simp [MappedDevice.readPath, row.isDevice]
  | some name => simp [MappedDevice.readPath]

/-! Lines. -/

theorem Spaced.ends_plain {words : List Word} {line : List Char} (h : Spaced words line) :
    ∀ c ∈ line, c ≠ '\n' ∧ c ≠ '\r' := by
  have hword : ∀ word : Word, ∀ c ∈ word.val.toList, c ≠ '\n' ∧ c ≠ '\r' := by
    intro word c hc
    have hplain := Word.plain word c hc
    refine ⟨?_, ?_⟩
    · rintro rfl
      cases hplain
    · rintro rfl
      cases hplain
  have hgap : ∀ n, ∀ c ∈ List.replicate n ' ', c ≠ '\n' ∧ c ≠ '\r' := by
    intro n c hc
    rw [List.eq_of_mem_replicate hc]
    decide
  induction h with
  | last word pad =>
    intro c hc
    cases List.mem_append.mp hc with
    | inl hc => exact hword word c hc
    | inr hc => exact hgap pad c hc
  | next word gap _ ih =>
    intro c hc
    cases List.mem_append.mp hc with
    | inr hc => exact ih c hc
    | inl hc =>
      cases List.mem_append.mp hc with
      | inl hc => exact hword word c hc
      | inr hc => exact hgap (gap + 1) c hc

/-- A line without line ends in it, which is not empty. -/
def PlainLine (line : List Char) : Prop := line ≠ [] ∧ ∀ c ∈ line, c ≠ '\n' ∧ c ≠ '\r'

theorem plainLine_of_prints {row : MappedDevice} {line : List Char} (h : Prints row line) :
    PlainLine line := by
  obtain ⟨pad, body, hspaced, rfl⟩ := h
  refine ⟨?_, ?_⟩
  · cases hspaced with
    | next => simp
  · intro c hc
    cases List.mem_append.mp hc with
    | inl hc =>
      rw [List.eq_of_mem_replicate hc]
      decide
    | inr hc => exact hspaced.ends_plain c hc

/-- The carriage return that may end a line. -/
def chomp (line : List Char) : List Char := if line.getLast? = some '\r' then line.dropLast else line

theorem chomp_of_plain {line : List Char} (h : PlainLine line) : chomp line = line := by
  apply if_neg
  intro hlast
  exact (h.2 '\r' (List.mem_of_getLast? hlast)).2 rfl

theorem drop_chomped {header : List Char} {lines : List (List Char)}
    (h : ∀ line ∈ lines, PlainLine line) : ((header :: lines).map chomp).drop 1 = lines := by
  rw [List.map_cons, List.drop_succ_cons, List.drop_zero]
  calc lines.map chomp = lines.map id :=
        List.map_congr_left fun line hmem => chomp_of_plain (h line hmem)
    _ = lines := List.map_id lines

/-- What is taken off the parts of a listing is the empty one after a final newline,
or a header alone that is empty. -/
theorem lines_listing {header : List Char} {lines : List (List Char)}
    (hheader : '\n' ∉ header) (hlines : ∀ line ∈ lines, PlainLine line) (final : Bool) :
    (Text.lines (listing header lines final)).drop 1 = lines := by
  have hparts : (listing header lines final).toList.splitOn '\n' =
      (header :: lines) ++ if final then [[]] else [] := by
    rw [listing, String.toList_ofList]
    apply List.splitOn_intercalate
    · intro line hmem
      cases List.mem_append.mp hmem with
      | inl hmem =>
        cases List.mem_cons.mp hmem with
        | inl heq => exact heq ▸ hheader
        | inr hmem => exact fun hnewline => ((hlines line hmem).2 '\n' hnewline).1 rfl
      | inr hmem =>
        cases final with
        | false => cases hmem
        | true => simp [List.mem_singleton.mp hmem]
    · simp
  unfold Text.lines
  dsimp only
  rw [hparts]
  cases final with
  | true =>
    rw [if_pos rfl, if_pos List.getLast?_concat, List.dropLast_concat]
    exact drop_chomped hlines
  | false =>
    rw [if_neg Bool.false_ne_true, List.append_nil]
    split
    · next hlast =>
      cases hrows : lines with
      | nil => rfl
      | cons first rest =>
        rw [hrows, List.getLast?_cons_cons] at hlast
        exact absurd rfl (hlines [] (hrows ▸ List.mem_of_getLast? hlast)).1
    · exact drop_chomped hlines

/-- The pairs of a listing are the rows as they are read. -/
theorem rbdLinesList_listing {header : List Char} (hheader : '\n' ∉ header)
    {rows : List MappedDevice} {lines : List (List Char)} (hlines : List.Forall₂ Prints rows lines)
    (final : Bool) :
    rbdLinesList (listing header lines final) =
      rows.map fun row => (row.readPath, row.device.val) := by
  have hplain : ∀ line ∈ lines, PlainLine line := by
    intro line hmem
    obtain ⟨row, _, hprints⟩ := Fallible.exists_of_forall₂ hlines.flip line hmem
    exact plainLine_of_prints hprints
  rw [rbdLinesList, lines_listing hheader hplain]
  induction hlines with
  | nil => rfl
  | @cons row line rows lines hfirst _ ih =>
    rw [List.filterMap_cons_some (rbdLine_of_prints hfirst), List.map_cons,
      ih fun line hmem => hplain line (List.mem_cons_of_mem _ hmem)]

/-! What the list is read for. -/

/-- The rows that read as an image but do not map it, and the ones in a namespace
that map it but do not read as it, make no difference where their devices are
listed otherwise. -/
structure ReadsFaithfully (rows : List MappedDevice) (image : RbdImage) : Prop where
  misread : ∀ row ∈ rows, row.readPath = image.rbdPath → ¬ row.Maps image →
    ∃ other ∈ rows, other.Maps image ∧ other.device = row.device
  missed : ∀ row ∈ rows, row.Maps image → row.namespaceName.isSome = true →
    ∃ other ∈ rows, other.readPath = image.rbdPath ∧ other.device = row.device

theorem MappedDevice.Maps.reads {row : MappedDevice} {image : RbdImage} (h : row.Maps image)
    (hplain : row.namespaceName = none) : row.readPath = image.rbdPath := by
  have himage := h.image
  rw [imageSpec, hplain, Option.elim_none] at himage
  rw [readPath, RbdImage.rbdPath, h.pool, himage]

/-- The image is found with exactly the devices of the rows that map it. -/
def FoundAsMapped (pairs : List (String × String)) (rows : List MappedDevice) (image : RbdImage) :
    Prop :=
  ∀ device, (image.rbdPath, device) ∈ pairs ↔
    ∃ row ∈ rows, row.Maps image ∧ row.device.val = device

theorem foundAsMapped_iff {header : List Char} (hheader : '\n' ∉ header)
    {rows : List MappedDevice} {lines : List (List Char)} (hlines : List.Forall₂ Prints rows lines)
    (final : Bool) (image : RbdImage) :
    FoundAsMapped (rbdLinesList (listing header lines final)) rows image ↔
      ReadsFaithfully rows image := by
  have hread : ∀ device, (image.rbdPath, device) ∈ rbdLinesList (listing header lines final) ↔
      ∃ row ∈ rows, row.readPath = image.rbdPath ∧ row.device.val = device := by
    intro device
    rw [rbdLinesList_listing hheader hlines, List.mem_map]
    simp only [Prod.mk.injEq]
  simp only [FoundAsMapped, hread]
  constructor
  · intro hfaithful
    refine ⟨?_, ?_⟩
    · intro row hmem hpath _
      obtain ⟨other, hother, hmaps, hdevice⟩ :=
        (hfaithful row.device.val).mp ⟨row, hmem, hpath, rfl⟩
      exact ⟨other, hother, hmaps, Subtype.ext hdevice⟩
    · intro row hmem hmaps _
      obtain ⟨other, hother, hpath, hdevice⟩ :=
        (hfaithful row.device.val).mpr ⟨row, hmem, hmaps, rfl⟩
      exact ⟨other, hother, hpath, Subtype.ext hdevice⟩
  · rintro ⟨hmisread, hmissed⟩ device
    constructor
    · rintro ⟨row, hmem, hpath, rfl⟩
      by_cases hmaps : row.Maps image
      · exact ⟨row, hmem, hmaps, rfl⟩
      · obtain ⟨other, hother, hmaps, hdevice⟩ := hmisread row hmem hpath hmaps
        exact ⟨other, hother, hmaps, congrArg Subtype.val hdevice⟩
    · rintro ⟨row, hmem, hmaps, rfl⟩
      cases hname : row.namespaceName with
      | none => exact ⟨row, hmem, hmaps.reads hname, rfl⟩
      | some name =>
        obtain ⟨other, hother, hpath, hdevice⟩ := hmissed row hmem hmaps (by rw [hname]; rfl)
        exact ⟨other, hother, hpath, congrArg Subtype.val hdevice⟩

/-- A name does not hold itself behind a namespace. -/
theorem MappedDevice.Maps.plain {row : MappedDevice} {image : RbdImage} (h : row.Maps image)
    (hreads : row.readPath = image.rbdPath) : row.namespaceName = none := by
  cases hname : row.namespaceName with
  | none => rfl
  | some name =>
    have hlength := congrArg (fun path => path.toList.length) hreads
    have himage := h.image
    rw [imageSpec, hname, Option.elim_some] at himage
    simp only [readPath, RbdImage.rbdPath, h.pool, ← himage, String.toList_append,
      List.length_append] at hlength
    have hslash : "/".toList.length = 1 := rfl
    omega

/-- The first slash of a path ends its pool. -/
theorem maps_of_reads {row : MappedDevice} {image : RbdImage} (hpool : '/' ∉ row.pool.val.toList)
    (hpool' : '/' ∉ image.pool.toList) (hreads : row.readPath = image.rbdPath)
    (hplain : row.namespaceName = none) (hwhole : row.snapshot = none) : row.Maps image := by
  have hchars : row.pool.val.toList ++ '/' :: row.image.val.toList =
      image.pool.toList ++ '/' :: image.image.toList := by
    have htext := congrArg String.toList hreads
    rw [MappedDevice.readPath, RbdImage.rbdPath, String.toList_append, String.toList_append,
      String.toList_append, String.toList_append, List.append_assoc, List.append_assoc] at htext
    exact htext
  have hparts := congrArg (List.splitOn '/') hchars
  rw [List.splitOn_append_cons_self_of_not_mem hpool,
    List.splitOn_append_cons_self_of_not_mem hpool', List.cons.injEq] at hparts
  rw [hparts.1, List.append_cancel_left_eq, List.cons.injEq] at hchars
  refine ⟨String.toList_injective hparts.1, ?_, hwhole⟩
  rw [MappedDevice.imageSpec, hplain, Option.elim_none]
  exact String.toList_injective hchars.2

/-- With one row for each device and pools as they are written in a URI, nothing is
confused exactly where no row is in a namespace or maps a snapshot. -/
theorem readsFaithfully_all_iff {rows : List MappedDevice}
    (hdevices : (rows.map MappedDevice.device).Nodup)
    (hpools : ∀ row ∈ rows, '/' ∉ row.pool.val.toList) :
    (∀ image : RbdImage, '/' ∉ image.pool.toList → ReadsFaithfully rows image) ↔
      ∀ row ∈ rows, row.namespaceName = none ∧ row.snapshot = none := by
  constructor
  · intro hall row hmem
    by_contra hspecial
    have hnot : ¬ row.Maps ⟨row.pool.val, row.image.val⟩ :=
      fun hmaps => hspecial ⟨hmaps.plain rfl, hmaps.snapshot⟩
    obtain ⟨other, hother, hmaps, hdevice⟩ :=
      (hall ⟨row.pool.val, row.image.val⟩ (hpools row hmem)).misread row hmem rfl hnot
    exact hnot (List.inj_on_of_nodup_map hdevices hother hmem hdevice ▸ hmaps)
  · intro hplain image hpool
    refine ⟨?_, ?_⟩
    · intro row hmem hreads hnot
      obtain ⟨hname, hwhole⟩ := hplain row hmem
      exact absurd (maps_of_reads (hpools row hmem) hpool hreads hname hwhole) hnot
    · intro row hmem _ hname
      rw [(hplain row hmem).1] at hname
      cases hname

/-- An image is found as it is mapped just when the rows read faithfully for it. With
one row for each device, all images are just when no row is in a namespace or maps a
snapshot. -/
theorem rbd_list_faithful_iff {header : List Char} (hheader : '\n' ∉ header)
    {rows : List MappedDevice} {lines : List (List Char)} (hlines : List.Forall₂ Prints rows lines)
    (final : Bool) :
    (∀ image, FoundAsMapped (rbdLinesList (listing header lines final)) rows image ↔
      ReadsFaithfully rows image) ∧
    ((rows.map MappedDevice.device).Nodup → (∀ row ∈ rows, '/' ∉ row.pool.val.toList) →
      ((∀ image : RbdImage, '/' ∉ image.pool.toList →
          FoundAsMapped (rbdLinesList (listing header lines final)) rows image) ↔
        ∀ row ∈ rows, row.namespaceName = none ∧ row.snapshot = none)) := by
  refine ⟨foundAsMapped_iff hheader hlines final, ?_⟩
  intro hdevices hpools
  simp only [foundAsMapped_iff hheader hlines final]
  exact readsFaithfully_all_iff hdevices hpools

/-! Listings in print. -/

def plainRow : MappedDevice where
  id := ⟨"0", by decide⟩
  pool := ⟨"kessoku-blockpool", by decide⟩
  namespaceName := none
  image := ⟨"testimg", by decide⟩
  snapshot := none
  device := ⟨"/dev/rbd0", by decide⟩
  isDevice := by decide

/-- The image of the same name in a namespace of the pool. -/
def namespacedRow : MappedDevice := { plainRow with namespaceName := some ⟨"foo", by decide⟩ }

def listHeader : List Char := "id  pool               namespace  image    snap  device".toList

theorem prints_plainRow :
    Prints plainRow "0   kessoku-blockpool             testimg  -     /dev/rbd0".toList :=
  ⟨0, _, .next _ 2 (.next _ 12 (.next _ 1 (.next _ 4 (.last _ 0)))), by decide +kernel⟩

theorem prints_namespacedRow :
    Prints namespacedRow "0   kessoku-blockpool  foo        testimg  -     /dev/rbd0".toList :=
  ⟨0, _, .next _ 2 (.next _ 1 (.next _ 7 (.next _ 1 (.next _ 4 (.last _ 0))))), by decide +kernel⟩

theorem rbd_list_faithful_iff_plain :
    let image : RbdImage := ⟨"kessoku-blockpool", "testimg"⟩
    let pairs := rbdLinesList (listing listHeader
      ["0   kessoku-blockpool             testimg  -     /dev/rbd0".toList] false)
    FoundAsMapped pairs [plainRow] image ∧ ReadsFaithfully [plainRow] image ∧
      (image.rbdPath, "/dev/rbd0") ∈ pairs := by
  intro image pairs
  have hheader : '\n' ∉ listHeader := by decide +kernel
  have hpool : '/' ∉ image.pool.toList := by decide +kernel
  obtain ⟨hone, hall⟩ := rbd_list_faithful_iff hheader (.cons prints_plainRow .nil) false
  have hplain : ∀ row ∈ [plainRow], row.namespaceName = none ∧ row.snapshot = none := by
    intro row hmem
    rw [List.mem_singleton.mp hmem]
    exact ⟨rfl, rfl⟩
  have hpools : ∀ row ∈ [plainRow], '/' ∉ row.pool.val.toList := by
    intro row hmem
    rw [List.mem_singleton.mp hmem]
    exact hpool
  have hfound := (hall (List.nodup_singleton _) hpools).mpr hplain image hpool
  have hlisted := (hfound "/dev/rbd0").mpr
    ⟨plainRow, List.mem_singleton_self _, ⟨rfl, rfl, rfl⟩, rfl⟩
  exact ⟨hfound, (hone image).mp hfound, hlisted⟩

/-- The image in the namespace is taken for the one outside of it, and is not found
under its own name. -/
theorem rbd_list_drops_namespace :
    let pairs := rbdLinesList (listing listHeader
      ["0   kessoku-blockpool  foo        testimg  -     /dev/rbd0".toList] false)
    Prints namespacedRow "0   kessoku-blockpool  foo        testimg  -     /dev/rbd0".toList ∧
      ((RbdImage.mk "kessoku-blockpool" "testimg").rbdPath, "/dev/rbd0") ∈ pairs ∧
      ¬ namespacedRow.Maps ⟨"kessoku-blockpool", "testimg"⟩ ∧
      namespacedRow.Maps ⟨"kessoku-blockpool", "foo/testimg"⟩ ∧
      ∀ device, ((RbdImage.mk "kessoku-blockpool" "foo/testimg").rbdPath, device) ∉ pairs := by
  intro pairs
  have hpairs : pairs = [("kessoku-blockpool/testimg", "/dev/rbd0")] := by decide +kernel
  refine ⟨prints_namespacedRow, ?_, ?_, ⟨rfl, by decide +kernel, rfl⟩, ?_⟩
  · rw [hpairs]
    exact List.mem_singleton.mpr (by decide +kernel)
  · intro hmaps
    have himage := hmaps.image
    revert himage
    decide +kernel
  · intro device hmem
    rw [hpairs, List.mem_singleton, Prod.mk.injEq] at hmem
    have hpath := hmem.1
    revert hpath
    decide +kernel

end Odorobo
