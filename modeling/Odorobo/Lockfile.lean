import Odorobo.Concurrent
import Odorobo.Saturating

/-! The lockfile that lets one instance run on a host. An instance creates the file,
writes its process id to it, serves, and removes it at the end; it may be killed
anywhere, and leaves the file then. -/

namespace Odorobo

open Program

/-- What an instance asks of its host, `mainloop` being the service itself. -/
inductive LockCall where
  | createNew
  | writeAll (bytes : List UInt8)
  | flush
  | mainloop
  | removeFile
  deriving DecidableEq

abbrev LockProgram := Program LockCall fun _ => Except String Unit

def lockfilePath : String := "/var/lock/odorobo.lock"

/-- `to_ne_bytes` on a little-endian host. -/
def pidBytes (pid : U32) : List UInt8 := (List.range 4).map fun i => .ofNat (pid.val / 256 ^ i)

/-- Whether a lockfile has to be removed at the end. -/
structure Lockfile where
  file : Bool

namespace Lockfile

def explain (message : String) (c : LockCall) : LockProgram (Except String Unit) :=
  (ask c).bind fun result => .done (result.mapError fun e => message ++ lockfilePath ++ ": " ++ e)

def initLockfile (noLockfile : Bool) (pid : U32) : LockProgram (Except String Lockfile) :=
  if noLockfile then .done (.ok ⟨false⟩)
  else
    (explain "Cannot create lockfile at " .createNew).andThen fun _ =>
      (explain "cannot write to " (.writeAll (pidBytes pid))).andThen fun _ =>
        (explain "cannot flush " .flush).andThen fun _ => .done (.ok ⟨true⟩)

/-- `Drop`. -/
def drop (lock : Lockfile) : LockProgram Unit :=
  if lock.file then .call .removeFile fun _ => .done () else .done ()

/-- The service, with the lock dropped after it. -/
def serve (lock : Lockfile) : LockProgram (Except String Unit) :=
  .call .mainloop fun result => lock.drop.bind fun _ => .done result

def main (noLockfile : Bool) (pid : U32) : LockProgram (Except String Unit) :=
  (initLockfile noLockfile pid).andThen serve

/-- One run of the binary; process ids may be used again. -/
structure Instance where
  pid : U32
  serial : Nat
  deriving DecidableEq

/-- The file at the path, with the instance that created it. -/
abbrev LockDir := Option (Instance × List UInt8)

/-- An instance writes to the file that it has open, whatever is at the path. -/
def LockDir.written (dir : LockDir) (id : Instance) (bytes : List UInt8) : LockDir :=
  dir.map fun file => if file.1 = id then (id, file.2 ++ bytes) else file

inductive Answers (id : Instance) (dir : LockDir) :
    (c : LockCall) → Except String Unit → LockDir → Prop where
  | created (missing : dir = none) : Answers id dir .createNew (.ok ()) (some (id, []))
  | notCreated (e : String) : Answers id dir .createNew (.error e) dir
  | written (bytes : List UInt8) :
      Answers id dir (.writeAll bytes) (.ok ()) (LockDir.written dir id bytes)
  | partlyWritten (bytes : List UInt8) (n : Nat) (e : String) :
      Answers id dir (.writeAll bytes) (.error e) (LockDir.written dir id (bytes.take n))
  | flushed (result : Except String Unit) : Answers id dir .flush result dir
  | served (result : Except String Unit) : Answers id dir .mainloop result dir
  | removed (found : dir ≠ none) : Answers id dir .removeFile (.ok ()) none
  | notRemoved (e : String) : Answers id dir .removeFile (.error e) dir

abbrev Host := Pool Instance LockCall (fun _ => Except String Unit) LockDir (Except String Unit)

/-- Instances start and are killed; the file may be removed by hand. -/
def host : Pool.System Instance LockCall (fun _ => Except String Unit) LockDir
    (Except String Unit) where
  starts id p _ := ∃ noLockfile, p = main noLockfile id.pid
  env := Answers
  resumes _ _ _ := False
  kills _ := True
  outside _ dir := dir = none

abbrev Step : Host → Pool.Act Instance LockCall (fun _ => Except String Unit) → Host → Prop :=
  Pool.Step host

/-! The calls of an instance after it has created the file. -/

def writing (pid : U32) : LockProgram (Except String Unit) :=
  ((explain "cannot write to " (.writeAll (pidBytes pid))).andThen fun _ =>
    (explain "cannot flush " .flush).andThen fun _ => .done (.ok ⟨true⟩)).andThen serve

def flushing : LockProgram (Except String Unit) :=
  ((explain "cannot flush " .flush).andThen fun _ => .done (.ok ⟨true⟩)).andThen serve

theorem main_eq (pid : U32) : main false pid = .call .createNew fun
    | .error e => .done (.error ("Cannot create lockfile at " ++ lockfilePath ++ ": " ++ e))
    | .ok () => writing pid := by
  unfold main initLockfile explain ask
  simp only [Bool.false_eq_true, if_false, Program.andThen, Program.bind]
  congr 1
  funext result
  cases result <;> rfl

theorem writing_eq (pid : U32) : writing pid = .call (.writeAll (pidBytes pid)) fun
    | .error e => .done (.error ("cannot write to " ++ lockfilePath ++ ": " ++ e))
    | .ok () => flushing := by
  unfold writing explain ask
  simp only [Program.andThen, Program.bind]
  congr 1
  funext result
  cases result <;> rfl

theorem flushing_eq : flushing = .call .flush fun
    | .error e => .done (.error ("cannot flush " ++ lockfilePath ++ ": " ++ e))
    | .ok () => serve ⟨true⟩ := by
  unfold flushing explain ask
  simp only [Program.andThen, Program.bind]
  congr 1
  funext result
  cases result <;> rfl

theorem serve_eq (lock : Lockfile) : serve lock = .call .mainloop fun result =>
    if lock.file then .call .removeFile fun _ => .done result else .done result := by
  unfold serve drop
  congr 1
  funext result
  split <;> rfl

/-- What the file has in it when an instance that holds the lock makes its next call. -/
def held (pid : U32) : LockProgram (Except String Unit) → Option (List UInt8)
  | .call (.writeAll _) _ => some []
  | .call .flush _ => some (pidBytes pid)
  | .call .removeFile _ => some (pidBytes pid)
  | .call .mainloop next =>
    match next (.ok ()) with
    | .call .removeFile _ => some (pidBytes pid)
    | _ => none
  | .call .createNew _ => none
  | .done _ => none

/-- The file of every instance that holds the lock is at the path. -/
def Guarded (x : Host) : Prop :=
  ∀ id p bytes, x.threads.get id = some p → held id.pid p = some bytes →
    x.world = some (id, bytes)

def Held (x : Host) : Prop :=
  ∃ id p bytes, x.threads.get id = some p ∧ held id.pid p = some bytes

/-- The file is at the path, and no instance is there to remove it. -/
def Stale (x : Host) : Prop := x.world ≠ none ∧ ¬ Held x

/-- The file is removed by hand while an instance holds the lock. -/
def RemovesHeld (x : Host) : Pool.Act Instance LockCall (fun _ => Except String Unit) → Prop
  | .outside => Held x
  | _ => False

/-- An instance that holds the lock ends without removing the file. -/
def LeavesFile : (_ : LockCall) × Except String Unit → Prop
  | ⟨.writeAll _, .error _⟩ => True
  | ⟨.flush, .error _⟩ => True
  | ⟨.removeFile, .error _⟩ => True
  | _ => False

def Abandons (x : Host) : Pool.Act Instance LockCall (fun _ => Except String Unit) → Prop
  | .work _ entry => LeavesFile entry
  | .kill id => ∃ p bytes, x.threads.get id = some p ∧ held id.pid p = some bytes
  | _ => False

/-- Where an instance can be. -/
inductive Point (pid : U32) : LockProgram (Except String Unit) → Prop where
  | createNew : Point pid (.call .createNew fun
      | .error e => .done (.error ("Cannot create lockfile at " ++ lockfilePath ++ ": " ++ e))
      | .ok () => writing pid)
  | writeAll : Point pid (.call (.writeAll (pidBytes pid)) fun
      | .error e => .done (.error ("cannot write to " ++ lockfilePath ++ ": " ++ e))
      | .ok () => flushing)
  | flush : Point pid (.call .flush fun
      | .error e => .done (.error ("cannot flush " ++ lockfilePath ++ ": " ++ e))
      | .ok () => serve ⟨true⟩)
  | mainloop (lock : Lockfile) : Point pid (.call .mainloop fun result =>
      if lock.file then .call .removeFile fun _ => .done result else .done result)
  | removeFile (result : Except String Unit) :
      Point pid (.call .removeFile fun _ => .done result)
  | ended (result : Except String Unit) : Point pid (.done result)

theorem point_writing (pid : U32) : Point pid (writing pid) := by
  rw [writing_eq]
  exact .writeAll

theorem point_flushing (pid : U32) : Point pid flushing := by
  rw [flushing_eq]
  exact .flush

theorem point_serve (pid : U32) (lock : Lockfile) : Point pid (serve lock) := by
  rw [serve_eq]
  exact .mainloop lock

theorem point_main (noLockfile : Bool) (pid : U32) : Point pid (main noLockfile pid) := by
  cases noLockfile
  · rw [main_eq]
    exact .createNew
  · exact point_serve pid ⟨false⟩

theorem held_writing (pid : U32) : held pid (writing pid) = some [] := by
  rw [writing_eq]
  rfl

theorem held_flushing (pid : U32) : held pid flushing = some (pidBytes pid) := by
  rw [flushing_eq]
  rfl

theorem held_serve (pid : U32) (lock : Lockfile) :
    held pid (serve lock) = if lock.file then some (pidBytes pid) else none := by
  obtain ⟨file⟩ := lock
  cases file <;> rfl

theorem held_main (noLockfile : Bool) (pid : U32) : held pid (main noLockfile pid) = none := by
  cases noLockfile
  · rw [main_eq]
    rfl
  · exact held_serve pid ⟨false⟩

/-- What is asserted of an instance: where it is, and that its file is at the path. -/
def At (id : Instance) (p : LockProgram (Except String Unit)) (dir : LockDir) : Prop :=
  Point id.pid p ∧ ∀ bytes, held id.pid p = some bytes → dir = some (id, bytes)

/-- What a call of an instance can do. -/
inductive Turn (id : Instance) (dir dir' : LockDir) (before after : LockProgram (Except String Unit))
    (entry : (_ : LockCall) × Except String Unit) : Prop where
  | unlocked (free : held id.pid before = none) (still : held id.pid after = none)
      (same : dir' = dir) (stays : ¬ LeavesFile entry)
  | taken (missing : dir = none) (own : dir' = some (id, []))
      (holds : held id.pid after = some []) (stays : ¬ LeavesFile entry)
  | goesOn (bytes bytes' : List UInt8) (found : dir = some (id, bytes))
      (own : dir' = some (id, bytes')) (holds : held id.pid after = some bytes')
      (stays : ¬ LeavesFile entry)
  | released (bytes : List UInt8) (found : dir = some (id, bytes)) (removed : dir' = none)
      (ends : held id.pid after = none) (stays : ¬ LeavesFile entry)
  | abandoned (bytes : List UInt8) (found : dir = some (id, bytes)) (left : dir' ≠ none)
      (ends : held id.pid after = none) (leaves : LeavesFile entry)

section Calls

variable {id : Instance} {dir dir' : LockDir} {c : LockCall}
  {next : Except String Unit → LockProgram (Except String Unit)} {r : Except String Unit}

theorem Point.called (h : Point id.pid (.call c next)) (r : Except String Unit) :
    Point id.pid (next r) := by
  cases h with
  | createNew =>
    cases r with
    | error e => exact .ended _
    | ok value => exact point_writing id.pid
  | writeAll =>
    cases r with
    | error e => exact .ended _
    | ok value => exact point_flushing id.pid
  | flush =>
    cases r with
    | error e => exact .ended _
    | ok value => exact point_serve id.pid ⟨true⟩
  | mainloop lock =>
    obtain ⟨file⟩ := lock
    cases file with
    | false => exact .ended r
    | true => exact .removeFile r
  | removeFile result => exact .ended result

theorem At.turn (h : At id (.call c next) dir) (answer : Answers id dir c r dir') :
    Turn id dir dir' (.call c next) (next r) ⟨c, r⟩ := by
  obtain ⟨hpoint, hown⟩ := h
  cases hpoint with
  | createNew =>
    cases answer with
    | created missing => exact .taken missing rfl (held_writing id.pid) (by simp [LeavesFile])
    | notCreated e => exact .unlocked rfl rfl rfl (by simp [LeavesFile])
  | writeAll =>
    have hfound := hown [] rfl
    cases answer with
    | written bytes =>
      exact .goesOn [] (pidBytes id.pid) hfound (by simp [hfound, LockDir.written])
        (held_flushing id.pid) (by simp [LeavesFile])
    | partlyWritten bytes n e =>
      exact .abandoned [] hfound (by simp [hfound, LockDir.written]) rfl trivial
  | flush =>
    have hfound := hown (pidBytes id.pid) rfl
    cases answer with
    | flushed result =>
      cases r with
      | error e => exact .abandoned _ hfound (by simp [hfound]) rfl trivial
      | ok value =>
        exact .goesOn _ _ hfound hfound (held_serve id.pid ⟨true⟩) (by simp [LeavesFile])
  | mainloop lock =>
    obtain ⟨file⟩ := lock
    cases answer with
    | served result =>
      cases file with
      | false => exact .unlocked rfl rfl rfl (by simp [LeavesFile])
      | true =>
        have hfound := hown (pidBytes id.pid) rfl
        exact .goesOn _ _ hfound hfound rfl (by simp [LeavesFile])
  | removeFile result =>
    have hfound := hown (pidBytes id.pid) rfl
    cases answer with
    | removed found => exact .released _ hfound rfl rfl (by simp [LeavesFile])
    | notRemoved e => exact .abandoned _ hfound (by simp [hfound]) rfl trivial

theorem At.called (h : At id (.call c next) dir) (answer : Answers id dir c r dir') :
    At id (next r) dir' := by
  refine ⟨h.1.called r, fun bytes hheld => ?_⟩
  cases h.turn answer with
  | unlocked free still same stays => rw [still] at hheld; cases hheld
  | taken missing own holds stays => rw [own, ← Option.some.inj (holds.symm.trans hheld)]
  | goesOn bytes bytes' found own holds stays =>
    rw [own, ← Option.some.inj (holds.symm.trans hheld)]
  | released bytes found removed ends stays => rw [ends] at hheld; cases hheld
  | abandoned bytes found left ends leaves => rw [ends] at hheld; cases hheld

/-- A call does not touch the file of another instance. -/
theorem At.undisturbed (h : At id (.call c next) dir) (answer : Answers id dir c r dir')
    {other : Instance} {p : LockProgram (Except String Unit)} (distinct : other ≠ id)
    (hother : At other p dir) : At other p dir' := by
  refine ⟨hother.1, fun bytes hheld => ?_⟩
  have hown := hother.2 bytes hheld
  have hmine : ∀ bytes', dir ≠ some (id, bytes') := by
    intro bytes' heq
    exact distinct (congrArg Prod.fst (Option.some.inj (hown.symm.trans heq)))
  cases h.turn answer with
  | unlocked free still same stays => exact same.trans hown
  | taken missing own holds stays => rw [hown] at missing; cases missing
  | goesOn bytes bytes' found own holds stays => exact absurd found (hmine bytes)
  | released bytes found removed ends stays => exact absurd found (hmine bytes)
  | abandoned bytes found left ends leaves => exact absurd found (hmine bytes)

end Calls

section Runs

open Transition

variable {x y : Host} {act : Pool.Act Instance LockCall (fun _ => Except String Unit)}

abbrev Asserts : Host → Prop :=
  Pool.Holds (fun _ => True) fun id p dir => ∀ q, p = some q → At id q dir

theorem Asserts.at (h : Asserts x) {id : Instance} {p : LockProgram (Except String Unit)}
    (hget : x.threads.get id = some p) : At id p x.world :=
  h.running hget p rfl

theorem guarded_of_asserts (h : Asserts x) : Guarded x :=
  fun _ _ bytes hget hheld => (h.at hget).2 bytes hheld

theorem asserts_step (h : Asserts x) (careful : ¬ RemovesHeld x act) (hstep : Step x act y) :
    Asserts y := by
  refine h.step ?_ ?_ ?_ ?_ ?_ ?_ hstep
  · rintro id p w - - ⟨noLockfile, rfl⟩ q hq
    obtain rfl := Option.some.inj hq
    exact ⟨point_main noLockfile id.pid, by simp [held_main]⟩
  · intro id c next r w u _ hat answer
    refine ⟨trivial, fun q hq => ?_⟩
    obtain rfl := Option.some.inj hq
    exact (hat _ rfl).called answer
  · intro id c next r w u _ hat answer other p distinct hother q hq
    exact (hat _ rfl).undisturbed answer distinct (hother q hq)
  · exact fun _ _ _ _ _ again => again.elim
  · exact fun _ _ _ _ _ q hq => (Option.some_ne_none q hq.symm).elim
  · rintro rfl w -
    refine ⟨trivial, fun id p hget => ⟨((h.threads id) p hget).1, fun bytes hheld => ?_⟩⟩
    exact absurd ⟨id, p, bytes, hget, hheld⟩ careful

theorem not_guarded_of_removesHeld (removes : RemovesHeld x act) (hstep : Step x act y) :
    ¬ Guarded y := by
  cases hstep with
  | outside w change =>
    obtain ⟨id, p, bytes, hget, hheld⟩ := removes
    intro hguarded
    have hown := hguarded id p bytes hget hheld
    rw [show w = none from change] at hown
    cases hown
  | start id p fresh started => cases removes
  | work id c next r w running answer => cases removes
  | resume id a p ended again => exact again.elim
  | kill id killed => cases removes

/-- An instance that holds the lock when another one takes a step still holds it. -/
theorem held_insert {id other : Instance} {p q : LockProgram (Except String Unit)}
    {bytes : List UInt8} {w : LockDir} (distinct : other ≠ id)
    (hget : x.threads.get other = some q) (hheld : held other.pid q = some bytes) :
    Held ⟨w, x.threads.insert id p⟩ :=
  ⟨other, q, bytes, by rw [AHashMap.get_insert_ne _ _ distinct, hget], hheld⟩

/-- The file is kept for as long as it is held, but for the steps that abandon it. -/
theorem not_stale_step (h : Asserts x) (fresh : ¬ Stale x) (keeps : ¬ Abandons x act)
    (hstep : Step x act y) : ¬ Stale y := by
  rintro ⟨hfile, hnone⟩
  have hheld : x.world ≠ none → Held x := by
    intro hthere
    by_contra hfree
    exact fresh ⟨hthere, hfree⟩
  cases hstep with
  | start id p absent started =>
    obtain ⟨other, q, bytes, hget, hbytes⟩ := hheld hfile
    have hdistinct : other ≠ id := by
      rintro rfl
      rw [absent] at hget
      cases hget
    exact hnone (held_insert hdistinct hget hbytes)
  | work id c next r w running answer =>
    have hself : ∀ bytes, held id.pid (next r) = some bytes → False := by
      intro bytes hbytes
      exact hnone ⟨id, next r, bytes, AHashMap.get_insert_self _ _ _, hbytes⟩
    cases (h.at running).turn answer with
    | unlocked free still same stays =>
      obtain ⟨other, q, bytes, hget, hbytes⟩ := hheld (same ▸ hfile)
      have hdistinct : other ≠ id := by
        rintro rfl
        rw [running] at hget
        obtain rfl := Option.some.inj hget
        rw [free] at hbytes
        cases hbytes
      exact hnone (held_insert hdistinct hget hbytes)
    | taken missing own holds stays => exact hself [] holds
    | goesOn bytes bytes' found own holds stays => exact hself bytes' holds
    | released bytes found removed ends stays => exact hfile removed
    | abandoned bytes found left ends leaves => exact keeps leaves
  | resume id a p ended again => exact again.elim
  | kill id killed =>
    obtain ⟨other, q, bytes, hget, hbytes⟩ := hheld hfile
    have hdistinct : other ≠ id := by
      rintro rfl
      exact keeps ⟨q, bytes, hget, hbytes⟩
    exact hnone ⟨other, q, bytes, by rw [AHashMap.get_erase_ne _ hdistinct, hget], hbytes⟩
  | outside w change => exact hfile change

theorem stale_of_abandons (h : Asserts x) (abandons : Abandons x act)
    (hstep : Step x act y) : Stale y := by
  cases hstep with
  | start id p absent started => cases abandons
  | work id c next r w running answer =>
    cases (h.at running).turn answer with
    | unlocked free still same stays => exact absurd abandons stays
    | taken missing own holds stays => exact absurd abandons stays
    | goesOn bytes bytes' found own holds stays => exact absurd abandons stays
    | released bytes found removed ends stays => exact absurd abandons stays
    | abandoned bytes found left ends leaves =>
      refine ⟨left, ?_⟩
      rintro ⟨other, q, bytes', hget, hbytes⟩
      rw [AHashMap.get_insert] at hget
      split at hget
      · next heq =>
        obtain rfl := Option.some.inj hget
        rw [heq, ends] at hbytes
        cases hbytes
      · next hne =>
        have hown := (h.at hget).2 bytes' hbytes
        rw [found] at hown
        exact hne (congrArg Prod.fst (Option.some.inj hown)).symm
  | resume id a p ended again => exact again.elim
  | kill id killed =>
    obtain ⟨p, bytes, hget, hbytes⟩ := abandons
    have hown := (h.at hget).2 bytes hbytes
    refine ⟨by simp [hown], ?_⟩
    rintro ⟨other, q, bytes', hother, hbytes'⟩
    obtain ⟨hne, hthere⟩ := (AHashMap.get_erase_eq_some x.threads).mp hother
    have hother := (h.at hthere).2 bytes' hbytes'
    rw [hown] at hother
    exact hne (congrArg Prod.fst (Option.some.inj hother)).symm
  | outside w change => cases abandons

theorem asserts_start (dir : LockDir) : Asserts (⟨dir, AHashMap.empty⟩ : Host) := by
  refine ⟨trivial, fun id p hget => ?_⟩
  simp at hget

theorem asserts_run (run : List (Pool.Act Instance LockCall (fun _ => Except String Unit) × Host))
    (h : Asserts x) (isRun : IsRun Step x run)
    (careful : AllSteps (fun x act => ¬ RemovesHeld x act) x run) :
    AllStates Asserts x run :=
  allStates_of_step (fun _ _ _ hs hc hstep => asserts_step hs hc hstep) x run h isRun careful

/-- An instance gets the lock while another one has it. -/
def GetsSecond (x : Host) (act : Pool.Act Instance LockCall fun _ => Except String Unit) : Prop :=
  Held x ∧ ∃ id, act = .work id ⟨.createNew, .ok ()⟩

theorem not_getsSecond (h : Guarded x) (hstep : Step x act y) : ¬ GetsSecond x act := by
  rintro ⟨⟨other, q, bytes, hget, hbytes⟩, id, rfl⟩
  have hfile := h other q bytes hget hbytes
  cases hstep with
  | work id c next r w running answer =>
    cases answer with
    | created missing =>
      rw [hfile] at missing
      cases missing

/-- The file of every instance that holds the lock is at the path, with its process id
in it from when it serves on, exactly in the runs in which nobody removes the file of an
instance that holds the lock. In these runs no instance gets the lock while another one
has it. -/
theorem lockfile_excludes (dir : LockDir)
    (run : List (Pool.Act Instance LockCall (fun _ => Except String Unit) × Host))
    (isRun : IsRun Step ⟨dir, AHashMap.empty⟩ run) :
    (AllStates Guarded ⟨dir, AHashMap.empty⟩ run ↔
      AllSteps (fun x act => ¬ RemovesHeld x act) ⟨dir, AHashMap.empty⟩ run) ∧
    (AllStates Guarded ⟨dir, AHashMap.empty⟩ run →
      AllSteps (fun x act => ¬ GetsSecond x act) ⟨dir, AHashMap.empty⟩ run) := by
  refine ⟨⟨fun hguarded => ?_, fun careful => ?_⟩, fun hguarded => ?_⟩
  · exact allSteps_of_invariant (fun _ _ _ hs hc hstep => asserts_step hs hc hstep)
      (fun _ _ _ _ hc hstep => not_guarded_of_removesHeld (not_not.mp hc) hstep) _ run
      (asserts_start dir) isRun hguarded
  · exact allStates_mono (fun _ => guarded_of_asserts) (asserts_run run (asserts_start dir) isRun
      careful)
  · refine allSteps_of_taken (P := Guarded) ?_ _ run isRun hguarded
    intro x act y h hstep
    exact not_getsSecond h hstep

/-- Started where no file is, and with nobody removing the file of an instance, the
instances leave a file behind only by being killed or failing to write or remove it. -/
theorem lockfile_never_stale
    (run : List (Pool.Act Instance LockCall (fun _ => Except String Unit) × Host))
    (isRun : IsRun Step ⟨none, AHashMap.empty⟩ run)
    (careful : AllSteps (fun x act => ¬ RemovesHeld x act) ⟨none, AHashMap.empty⟩ run) :
    AllStates (fun x => ¬ Stale x) ⟨none, AHashMap.empty⟩ run ↔
      AllSteps (fun x act => ¬ Abandons x act) ⟨none, AHashMap.empty⟩ run := by
  have hasserts := asserts_run run (asserts_start none) isRun careful
  constructor
  · intro hfresh
    refine allSteps_of_states (P := fun x => Asserts x ∧ ¬ Stale x) ?_ _ run isRun
      ((allStates_and_iff _ run).mpr ⟨hasserts, hfresh⟩)
    rintro x act y ⟨hat, -⟩ habandons hstep ⟨-, hfresh⟩
    exact hfresh (stale_of_abandons hat (not_not.mp habandons) hstep)
  · intro hkeeps
    have hallowed := allSteps_and _ run careful hkeeps
    refine allStates_mono (fun _ h => h.2) (allStates_of_step
      (P := fun x => Asserts x ∧ ¬ Stale x) ?_ _ run
      ⟨asserts_start none, fun h => h.1 rfl⟩ isRun hallowed)
    rintro x act y ⟨hat, hfresh⟩ ⟨hremoves, habandons⟩ hstep
    exact ⟨asserts_step hat hremoves hstep, not_stale_step hat hfresh habandons hstep⟩

/-! A second instance is refused; the first one is killed before it has served. -/

def first : Instance := ⟨41, 0⟩

def second : Instance := ⟨42, 1⟩

def refusedRun : List (Pool.Act Instance LockCall (fun _ => Except String Unit) × Host) :=
  let alone := AHashMap.empty.insert first (main false first.pid)
  let locked := alone.insert first (writing first.pid)
  let both := locked.insert second (main false second.pid)
  let refused := both.insert second
    (.done (.error ("Cannot create lockfile at " ++ lockfilePath ++ ": " ++ "AlreadyExists")))
  [(.start first, ⟨none, alone⟩),
    (.work first ⟨.createNew, .ok ()⟩, ⟨some (first, []), locked⟩),
    (.start second, ⟨some (first, []), both⟩),
    (.work second ⟨.createNew, .error "AlreadyExists"⟩, ⟨some (first, []), refused⟩),
    (.kill first, ⟨some (first, []), refused.erase first⟩)]

theorem isRun_refusedRun : IsRun Step ⟨none, AHashMap.empty⟩ refusedRun := by
  refine ⟨.start first _ (AHashMap.get_empty first) ⟨false, rfl⟩, ?_,
    .start second _ rfl ⟨false, rfl⟩, ?_, .kill first trivial, trivial⟩
  · exact Pool.Step.call (AHashMap.get_insert_self _ _ _) (main_eq first.pid) rfl
      (Answers.created rfl)
  · exact Pool.Step.call (AHashMap.get_insert_self _ _ _) (main_eq second.pid) rfl
      (Answers.notCreated "AlreadyExists")

theorem careful_refusedRun :
    AllSteps (fun x act => ¬ RemovesHeld x act) ⟨none, AHashMap.empty⟩ refusedRun := by
  simp [refusedRun, AllSteps, RemovesHeld]

theorem lockfile_excludes_refused :
    AllStates Guarded ⟨none, AHashMap.empty⟩ refusedRun :=
  (lockfile_excludes none refusedRun isRun_refusedRun).1.mpr careful_refusedRun

theorem lockfile_never_stale_killed :
    ¬ AllStates (fun x => ¬ Stale x) ⟨none, AHashMap.empty⟩ refusedRun := by
  intro hfresh
  have hkeeps := (lockfile_never_stale refusedRun isRun_refusedRun careful_refusedRun).mp hfresh
  obtain ⟨-, -, -, -, hkill, -⟩ := hkeeps
  exact hkill ⟨writing first.pid, [], rfl, held_writing first.pid⟩

end Runs

end Lockfile

end Odorobo
