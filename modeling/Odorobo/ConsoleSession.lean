import Odorobo.Concurrent
import Odorobo.Console

/-! The console of a VM actor under its tasks: those that attach the serial socket (one
for a VM that is started here, one for each migration received), the task that spools
what is read, and the handlers that write input and read the history. -/

namespace Odorobo

open Program

/-- The number of a stream is its place among the connections made. -/
abbrev StreamId := Nat

/-- `spool k` is the task of the `k`th reader that was spawned. -/
inductive ConsoleTask where
  | attach (n : Nat)
  | spool (k : Nat)
  | input (n : Nat) (bytes : List UInt8)
  | history (n : Nat)
  deriving DecidableEq

/-- The writer is behind a lock; the buffer is locked for one push or one reading only. -/
inductive ConsoleCall where
  | connect
  | lockWriter
  | unlockWriter
  | writer
  | setWriter (stream : StreamId)
  | spawn (stream : StreamId)
  | read (stream : StreamId)
  | push (chunk : List UInt8)
  | write (stream : StreamId) (bytes : List UInt8)
  | buffer
  deriving DecidableEq

abbrev ConsoleReply : ConsoleCall → Type
  | .connect => Except String StreamId
  | .writer => Option StreamId
  | .read _ => Except String (List UInt8)
  | .write _ _ => Except String Nat
  | .buffer => ConsoleBuffer
  | _ => Unit

abbrev ConsoleProgram := Program ConsoleCall ConsoleReply

structure GetConsoleHistoryReply where
  history : List UInt8
  deriving DecidableEq

structure SendConsoleInputReply where
  written : Nat
  error : Option String
  deriving DecidableEq

namespace Console

/-- A second connection is given up when there is a writer already. -/
def attachSocket (socketPath : String) : ConsoleProgram (Except String Unit) :=
  .call .connect fun
    | .error err =>
      .done (.error ("failed to attach console spool to " ++ socketPath ++ ": " ++ err))
    | .ok stream => .call .lockWriter fun _ => .call .writer fun writer =>
      if writer.isSome then .call .unlockWriter fun _ => .done (.ok ())
      else .call (.setWriter stream) fun _ => .call .unlockWriter fun _ =>
        .call (.spawn stream) fun _ => .done (.ok ())

/-- One round of the spooling task: whether it reads again. -/
def spool (stream : StreamId) : ConsoleProgram Bool :=
  .call (.read stream) fun
    | .ok [] => .done false
    | .ok (byte :: bytes) => .call (.push (byte :: bytes)) fun _ => .done true
    | .error _ => .done false

/-- `write_all`: whatever was not taken is offered again. -/
def writeAll (stream : StreamId) : List UInt8 → ConsoleProgram (Except String Unit)
  | [] => .done (.ok ())
  | byte :: bytes => .call (.write stream (byte :: bytes)) fun
    | .error err => .done (.error err)
    | .ok 0 => .done (.error "write zero")
    | .ok (n + 1) => writeAll stream (bytes.drop n)
  termination_by bytes => bytes.length
  decreasing_by
    rw [List.length_drop, List.length_cons]
    omega

def writeInput (input : List UInt8) : ConsoleProgram (Except String Unit) :=
  .call .lockWriter fun _ => .call .writer fun
    | none => .call .unlockWriter fun _ => .done (.error "console is not attached")
    | some stream => (writeAll stream input).bind fun result => .call .unlockWriter fun _ =>
      .done (result.mapError fun err => "failed to write to serial console: " ++ err)

def history : ConsoleProgram (List UInt8) :=
  .call .buffer fun buffer => .done buffer.history

end Console

namespace VMActor

def getConsoleHistory : ConsoleProgram GetConsoleHistoryReply :=
  Console.history.bind fun history => .done ⟨history⟩

def sendConsoleInput (input : List UInt8) : ConsoleProgram SendConsoleInputReply :=
  (Console.writeInput input).bind fun
    | .ok () => .done ⟨input.length, none⟩
    | .error err => .done ⟨0, some err⟩

end VMActor

/-- What is on record of the streams: who made each connection, what was read from
which one, and which task sent what to which one. -/
structure ConsoleWorld where
  streams : List ConsoleTask
  lock : Option ConsoleTask
  writer : Option StreamId
  spawned : List StreamId
  buffer : ConsoleBuffer
  received : List (StreamId × List UInt8)
  sent : List (ConsoleTask × StreamId × List UInt8)

namespace ConsoleWorld

def start : ConsoleWorld := ⟨[], none, none, [], .default, [], []⟩

/-- The bytes that a task got to the guest. -/
def sentBy (w : ConsoleWorld) (task : ConsoleTask) : List UInt8 :=
  (w.sent.filter fun entry => entry.1 = task).flatMap fun entry => entry.2.2

def chunks (w : ConsoleWorld) : List (List UInt8) := w.received.map Prod.snd

end ConsoleWorld

namespace Console

inductive Answers (task : ConsoleTask) (w : ConsoleWorld) :
    (c : ConsoleCall) → ConsoleReply c → ConsoleWorld → Prop where
  | connected : Answers task w .connect (.ok w.streams.length)
      { w with streams := w.streams ++ [task] }
  | notConnected (err : String) : Answers task w .connect (.error err) w
  | locked (free : w.lock = none) : Answers task w .lockWriter () { w with lock := some task }
  | unlocked : Answers task w .unlockWriter () { w with lock := none }
  | writer : Answers task w .writer w.writer w
  | writerSet (stream : StreamId) : Answers task w (.setWriter stream) ()
      { w with writer := some stream }
  | spawned (stream : StreamId) : Answers task w (.spawn stream) ()
      { w with spawned := w.spawned ++ [stream] }
  | closed (stream : StreamId) : Answers task w (.read stream) (.ok []) w
  | read (stream : StreamId) (byte : UInt8) (bytes : List UInt8)
      (fits : (byte :: bytes).length ≤ 16 * 1024) :
      Answers task w (.read stream) (.ok (byte :: bytes))
        { w with received := w.received ++ [(stream, byte :: bytes)] }
  | notRead (stream : StreamId) (err : String) : Answers task w (.read stream) (.error err) w
  | pushed (chunk : List UInt8) : Answers task w (.push chunk) ()
      { w with buffer := w.buffer.push chunk }
  | written (stream : StreamId) (bytes : List UInt8) (n : Nat) (part : n ≤ bytes.length) :
      Answers task w (.write stream bytes) (.ok n)
        { w with sent := w.sent ++ [(task, stream, bytes.take n)] }
  | notWritten (stream : StreamId) (bytes : List UInt8) (err : String) :
      Answers task w (.write stream bytes) (.error err) w
  | buffer : Answers task w .buffer w.buffer w

/-- How a round of a task ended. -/
inductive Ended where
  | attached (result : Except String Unit)
  | spooled (stream : StreamId) (again : Bool)
  | answered (reply : SendConsoleInputReply)
  | told (reply : GetConsoleHistoryReply)

def attachTask (socketPath : String) : ConsoleProgram Ended :=
  (attachSocket socketPath).bind fun result => .done (.attached result)

def spoolTask (stream : StreamId) : ConsoleProgram Ended :=
  (spool stream).bind fun again => .done (.spooled stream again)

def inputTask (input : List UInt8) : ConsoleProgram Ended :=
  (VMActor.sendConsoleInput input).bind fun reply => .done (.answered reply)

def historyTask : ConsoleProgram Ended :=
  VMActor.getConsoleHistory.bind fun reply => .done (.told reply)

/-- The tasks that may be started. -/
inductive Starts (socketPath : String) (w : ConsoleWorld) :
    ConsoleTask → ConsoleProgram Ended → Prop where
  | attach (n : Nat) : Starts socketPath w (.attach n) (attachTask socketPath)
  | spool (k : Nat) (stream : StreamId) (spawned : w.spawned[k]? = some stream) :
      Starts socketPath w (.spool k) (spoolTask stream)
  | input (n : Nat) (bytes : List UInt8) :
      Starts socketPath w (.input n bytes) (inputTask bytes)
  | history (n : Nat) : Starts socketPath w (.history n) historyTask

/-- A task whose attachment failed may try it again, and a spooling task reads on. -/
inductive Resumes (socketPath : String) : ConsoleTask → Ended → ConsoleProgram Ended → Prop where
  | attach (n : Nat) (err : String) :
      Resumes socketPath (.attach n) (.attached (.error err)) (attachTask socketPath)
  | spool (k : Nat) (stream : StreamId) :
      Resumes socketPath (.spool k) (.spooled stream true) (spoolTask stream)

def session (socketPath : String) :
    Pool.System ConsoleTask ConsoleCall ConsoleReply ConsoleWorld Ended where
  starts task p w := Starts socketPath w task p
  env := Answers
  resumes := Resumes socketPath
  kills _ := False
  outside _ _ := False

abbrev Session := Pool ConsoleTask ConsoleCall ConsoleReply ConsoleWorld Ended

abbrev Act := Pool.Act ConsoleTask ConsoleCall ConsoleReply

abbrev Step (socketPath : String) : Session → Act → Session → Prop :=
  Pool.Step (session socketPath)

def opened : Session := ⟨.start, AHashMap.empty⟩

/-! The tasks call by call. -/

def look (stream : StreamId) (writer : Option StreamId) : ConsoleProgram Ended :=
  if writer.isSome then .call .unlockWriter fun _ => .done (.attached (.ok ()))
  else .call (.setWriter stream) fun _ => .call .unlockWriter fun _ =>
    .call (.spawn stream) fun _ => .done (.attached (.ok ()))

def spooling (stream : StreamId) : Except String (List UInt8) → ConsoleProgram Ended
  | .ok [] => .done (.spooled stream false)
  | .ok (byte :: bytes) => .call (.push (byte :: bytes)) fun _ => .done (.spooled stream true)
  | .error _ => .done (.spooled stream false)

def finishInput (reply : SendConsoleInputReply) : ConsoleProgram Ended :=
  .call .unlockWriter fun _ => .done (.answered reply)

def writeFailed (err : String) : SendConsoleInputReply :=
  ⟨0, some ("failed to write to serial console: " ++ err)⟩

def writing (input : List UInt8) (stream : StreamId) (rest : List UInt8) : ConsoleProgram Ended :=
  (writeAll stream rest).bind fun
    | .ok () => finishInput ⟨input.length, none⟩
    | .error err => finishInput (writeFailed err)

def wrote (input : List UInt8) (stream : StreamId) (rest : List UInt8) :
    Except String Nat → ConsoleProgram Ended
  | .error err => finishInput (writeFailed err)
  | .ok 0 => finishInput (writeFailed "write zero")
  | .ok (n + 1) => writing input stream (rest.drop n)

def asked (input : List UInt8) : Option StreamId → ConsoleProgram Ended
  | none => finishInput ⟨0, some "console is not attached"⟩
  | some stream => writing input stream input

theorem attachTask_eq (socketPath : String) : attachTask socketPath = .call .connect fun
    | .error err => .done (.attached (.error
        ("failed to attach console spool to " ++ socketPath ++ ": " ++ err)))
    | .ok stream => .call .lockWriter fun _ => .call .writer (look stream) := by
  unfold attachTask attachSocket
  rw [Program.bind]
  congr 1
  funext result
  cases result with
  | error err => rfl
  | ok stream =>
    simp only [Program.bind]
    congr 1
    funext _
    congr 1
    funext writer
    unfold look
    split <;> rfl

theorem spoolTask_eq (stream : StreamId) :
    spoolTask stream = .call (.read stream) (spooling stream) := by
  unfold spoolTask spool
  rw [Program.bind]
  congr 1
  funext result
  unfold spooling
  split <;> rfl

theorem writing_nil (input : List UInt8) (stream : StreamId) :
    writing input stream [] = finishInput ⟨input.length, none⟩ := by
  rw [writing, writeAll, Program.bind]

theorem writing_cons (input : List UInt8) (stream : StreamId) (byte : UInt8) (rest : List UInt8) :
    writing input stream (byte :: rest) =
      .call (.write stream (byte :: rest)) (wrote input stream rest) := by
  rw [writing, writeAll, Program.bind]
  congr 1
  funext result
  unfold wrote writing
  split <;> rfl

theorem inputTask_eq (input : List UInt8) :
    inputTask input = .call .lockWriter fun _ => .call .writer (asked input) := by
  unfold inputTask VMActor.sendConsoleInput writeInput
  simp only [Program.bind]
  congr 1
  funext _
  congr 1
  funext writer
  cases writer with
  | none => rfl
  | some stream =>
    simp only [asked, writing, Program.bind_assoc]
    congr 1
    funext result
    cases result <;> rfl

/-! What is asserted of a task wherever it is. -/

/-- The answer to an input of which some bytes were sent. -/
structure Replied (sent input : List UInt8) (reply : SendConsoleInputReply) : Prop where
  part : sent <+: input
  written : reply.error = none → reply.written = input.length ∧ sent = input
  failed : reply.error ≠ none → reply.written = 0

/-- The task has the lock, and is the last to have sent, if it has. -/
structure Sending (w : ConsoleWorld) (task : ConsoleTask) : Prop where
  lock : w.lock = some task
  latest : (∀ entry ∈ w.sent, entry.1 ≠ task) ∨
    ∃ before entry, w.sent = before ++ [entry] ∧ entry.1 = task

/-- `none` stands for a task that was not started. -/
inductive At (socketPath : String) (w : ConsoleWorld) :
    ConsoleTask → Option (ConsoleProgram Ended) → Prop where
  | noAttach (n : Nat) : At socketPath w (.attach n) none
  | connect (n : Nat) : At socketPath w (.attach n) (some (.call .connect fun
      | .error err => .done (.attached (.error
          ("failed to attach console spool to " ++ socketPath ++ ": " ++ err)))
      | .ok stream => .call .lockWriter fun _ => .call .writer (look stream)))
  | claim (n : Nat) (stream : StreamId) (own : w.streams[stream]? = some (.attach n)) :
      At socketPath w (.attach n) (some (.call .lockWriter fun _ => .call .writer (look stream)))
  | look (n : Nat) (stream : StreamId) (own : w.streams[stream]? = some (.attach n))
      (lock : w.lock = some (.attach n)) :
      At socketPath w (.attach n) (some (.call .writer (look stream)))
  | leave (n : Nat) (lock : w.lock = some (.attach n)) :
      At socketPath w (.attach n) (some (.call .unlockWriter fun _ => .done (.attached (.ok ()))))
  | take (n : Nat) (stream : StreamId) (own : w.streams[stream]? = some (.attach n))
      (lock : w.lock = some (.attach n)) (free : w.writer = none) :
      At socketPath w (.attach n) (some (.call (.setWriter stream) fun _ =>
        .call .unlockWriter fun _ => .call (.spawn stream) fun _ => .done (.attached (.ok ()))))
  | taken (n : Nat) (stream : StreamId) (own : w.streams[stream]? = some (.attach n))
      (lock : w.lock = some (.attach n)) (set : w.writer = some stream) (unread : w.spawned = []) :
      At socketPath w (.attach n) (some (.call .unlockWriter fun _ =>
        .call (.spawn stream) fun _ => .done (.attached (.ok ()))))
  | spawn (n : Nat) (stream : StreamId) (own : w.streams[stream]? = some (.attach n))
      (set : w.writer = some stream) (unread : w.spawned = []) :
      At socketPath w (.attach n)
        (some (.call (.spawn stream) fun _ => .done (.attached (.ok ()))))
  | attached (n : Nat) (result : Except String Unit) :
      At socketPath w (.attach n) (some (.done (.attached result)))
  | noSpool (k : Nat) (quiet : k = 0 → w.received = [] ∧ w.buffer.Spools []) :
      At socketPath w (.spool k) none
  | read (k : Nat) (stream : StreamId) (spawned : w.spawned[k]? = some stream)
      (buffer : w.buffer.Spools (w.chunks).flatten) :
      At socketPath w (.spool k) (some (.call (.read stream) (spooling stream)))
  | push (k : Nat) (stream : StreamId) (chunk : List UInt8) (before : List (List UInt8))
      (spawned : w.spawned[k]? = some stream) (received : w.chunks = before ++ [chunk])
      (buffer : w.buffer.Spools before.flatten) :
      At socketPath w (.spool k) (some (.call (.push chunk) fun _ => .done (.spooled stream true)))
  | spooled (k : Nat) (stream : StreamId) (again : Bool) (spawned : w.spawned[k]? = some stream)
      (buffer : w.buffer.Spools (w.chunks).flatten) :
      At socketPath w (.spool k) (some (.done (.spooled stream again)))
  | noInput (n : Nat) (input : List UInt8) (unsent : ∀ entry ∈ w.sent, entry.1 ≠ .input n input) :
      At socketPath w (.input n input) none
  | enter (n : Nat) (input : List UInt8) (unsent : ∀ entry ∈ w.sent, entry.1 ≠ .input n input) :
      At socketPath w (.input n input)
        (some (.call .lockWriter fun _ => .call .writer (asked input)))
  | ask (n : Nat) (input : List UInt8) (lock : w.lock = some (.input n input))
      (unsent : ∀ entry ∈ w.sent, entry.1 ≠ .input n input) :
      At socketPath w (.input n input) (some (.call .writer (asked input)))
  | write (n : Nat) (input : List UInt8) (stream : StreamId) (byte : UInt8) (rest : List UInt8)
      (attached : w.writer = some stream) (sending : Sending w (.input n input))
      (part : w.sentBy (.input n input) ++ byte :: rest = input) :
      At socketPath w (.input n input)
        (some (.call (.write stream (byte :: rest)) (wrote input stream rest)))
  | finish (n : Nat) (input : List UInt8) (reply : SendConsoleInputReply)
      (lock : w.lock = some (.input n input))
      (replied : Replied (w.sentBy (.input n input)) input reply) :
      At socketPath w (.input n input)
        (some (.call .unlockWriter fun _ => .done (.answered reply)))
  | answered (n : Nat) (input : List UInt8) (reply : SendConsoleInputReply)
      (replied : Replied (w.sentBy (.input n input)) input reply) :
      At socketPath w (.input n input) (some (.done (.answered reply)))
  | noHistory (n : Nat) : At socketPath w (.history n) none
  | tell (n : Nat) : At socketPath w (.history n)
      (some (.call .buffer fun buffer => .done (.told ⟨buffer.history⟩)))
  | told (n : Nat) (reply : GetConsoleHistoryReply) :
      At socketPath w (.history n) (some (.done (.told reply)))

/-- Entries of one task are not parted by those of others. -/
def Contiguous (sent : List (ConsoleTask × StreamId × List UInt8)) : Prop :=
  ∀ a b c, List.Sublist [a, b, c] sent → a.1 = c.1 → b.1 = a.1

structure Sound (w : ConsoleWorld) : Prop where
  readers : w.spawned.length ≤ 1
  reader : ∀ stream ∈ w.spawned, w.writer = some stream
  received : ∀ entry ∈ w.received, w.writer = some entry.1
  sent : ∀ entry ∈ w.sent, w.writer = some entry.2.1 ∧ ∃ n input, entry.1 = .input n input
  contiguous : Contiguous w.sent

/-! Entries of the record. -/

theorem sublist_concat {α : Type} (xs : List α) {ys : List α} {x y : α}
    (h : List.Sublist (xs ++ [x]) (ys ++ [y])) :
    List.Sublist (xs ++ [x]) ys ∨ List.Sublist xs ys ∧ x = y := by
  obtain ⟨front, back, heq, hfront, hback⟩ := List.sublist_append_iff.mp h
  cases List.sublist_singleton.mp hback with
  | inl hnil =>
    rw [hnil, List.append_nil] at heq
    exact Or.inl (heq ▸ hfront)
  | inr hone =>
    rw [hone] at heq
    obtain ⟨rfl, hlast⟩ := List.append_inj' heq rfl
    exact Or.inr ⟨hfront, List.singleton_inj.mp hlast⟩

theorem Contiguous.append {sent : List (ConsoleTask × StreamId × List UInt8)}
    (h : Contiguous sent) {entry : ConsoleTask × StreamId × List UInt8}
    (latest : (∀ e ∈ sent, e.1 ≠ entry.1) ∨
      ∃ before last, sent = before ++ [last] ∧ last.1 = entry.1) :
    Contiguous (sent ++ [entry]) := by
  intro a b c hsub heq
  cases sublist_concat [a, b] hsub with
  | inl hold => exact h a b c hold heq
  | inr hnew =>
    obtain ⟨hpair, rfl⟩ := hnew
    cases latest with
    | inl hunsent => exact absurd heq (hunsent a (hpair.subset List.mem_cons_self))
    | inr hlast =>
      obtain ⟨before, last, rfl, hsame⟩ := hlast
      cases sublist_concat [a] hpair with
      | inl hbefore =>
        have htriple : List.Sublist [a, b, last] (before ++ [last]) :=
          hbefore.append (List.Sublist.refl [last])
        exact h a b last htriple (heq.trans hsame.symm)
      | inr hb =>
        obtain ⟨-, rfl⟩ := hb
        exact hsame.trans heq.symm

theorem sentBy_append (w : ConsoleWorld) (entry : ConsoleTask × StreamId × List UInt8)
    (task : ConsoleTask) :
    { w with sent := w.sent ++ [entry] }.sentBy task =
      w.sentBy task ++ if entry.1 = task then entry.2.2 else [] := by
  unfold ConsoleWorld.sentBy
  rw [List.filter_append, List.flatMap_append]
  congr 1
  split
  · next heq => simp [heq]
  · next hne => simp [hne]

theorem sentBy_eq_nil {w : ConsoleWorld} {task : ConsoleTask}
    (unsent : ∀ entry ∈ w.sent, entry.1 ≠ task) : w.sentBy task = [] := by
  have hnone : w.sent.filter (fun entry => entry.1 = task) = [] := by
    rw [List.filter_eq_nil_iff]
    intro entry hmem
    simpa using unsent entry hmem
  rw [ConsoleWorld.sentBy, hnone, List.flatMap_nil]

/-- What a call of a task leaves alone. -/
structure Frame (task : ConsoleTask) (w u : ConsoleWorld) : Prop where
  streams : ∀ (stream : StreamId) (other : ConsoleTask), w.streams[stream]? = some other → u.streams[stream]? = some other
  lock : ∀ other, other ≠ task → w.lock = some other → u.lock = some other
  writer : u.writer = w.writer ∨ (w.lock = some task ∧ w.writer = none)
  spawned : u.spawned = w.spawned ∨ ∃ stream, u.spawned = w.spawned ++ [stream] ∧
    w.writer = some stream ∧ w.streams[stream]? = some task
  read : (u.received = w.received ∧ u.buffer = w.buffer) ∨
    ∃ k stream, task = .spool k ∧ w.spawned[k]? = some stream
  sent : u.sent = w.sent ∨
    w.lock = some task ∧ ∃ entry, u.sent = w.sent ++ [entry] ∧ entry.1 = task

theorem Frame.refl (task : ConsoleTask) (w : ConsoleWorld) : Frame task w w :=
  ⟨fun _ _ h => h, fun _ _ h => h, Or.inl rfl, Or.inl rfl, Or.inl ⟨rfl, rfl⟩, Or.inl rfl⟩

theorem Frame.locked {task : ConsoleTask} {w : ConsoleWorld} (free : w.lock = none) :
    Frame task w { w with lock := some task } := by
  refine ⟨fun _ _ h => h, fun other _ h => ?_, Or.inl rfl, Or.inl rfl, Or.inl ⟨rfl, rfl⟩,
    Or.inl rfl⟩
  rw [free] at h
  cases h

theorem Frame.unlocked {task : ConsoleTask} {w : ConsoleWorld} (lock : w.lock = some task) :
    Frame task w { w with lock := none } := by
  refine ⟨fun _ _ h => h, fun other hne h => ?_, Or.inl rfl, Or.inl rfl, Or.inl ⟨rfl, rfl⟩,
    Or.inl rfl⟩
  exact absurd (Option.some.inj (h.symm.trans lock)) hne

section Calls

variable {socketPath : String} {w u : ConsoleWorld} {task : ConsoleTask} {c : ConsoleCall}
  {next : ConsoleReply c → ConsoleProgram Ended} {r : ConsoleReply c}

theorem At.frame (h : At socketPath w task (some (.call c next))) (answer : Answers task w c r u) :
    Frame task w u := by
  cases h with
  | connect n =>
    cases answer with
    | connected =>
      refine ⟨fun stream other h => ?_, fun _ _ h => h, Or.inl rfl, Or.inl rfl,
        Or.inl ⟨rfl, rfl⟩, Or.inl rfl⟩
      exact List.getElem?_append_left (List.getElem?_eq_some_iff.mp h).1 ▸ h
    | notConnected err => exact .refl _ w
  | claim n stream own => cases answer with | locked free => exact .locked free
  | look n stream own lock => cases answer with | writer => exact .refl _ w
  | leave n lock => cases answer with | unlocked => exact .unlocked lock
  | take n stream own lock free =>
    cases answer with
    | writerSet =>
      exact ⟨fun _ _ h => h, fun _ _ h => h, Or.inr ⟨lock, free⟩, Or.inl rfl,
        Or.inl ⟨rfl, rfl⟩, Or.inl rfl⟩
  | taken n stream own lock set unread => cases answer with | unlocked => exact .unlocked lock
  | spawn n stream own set unread =>
    cases answer with
    | spawned =>
      exact ⟨fun _ _ h => h, fun _ _ h => h, Or.inl rfl, Or.inr ⟨stream, rfl, set, own⟩,
        Or.inl ⟨rfl, rfl⟩, Or.inl rfl⟩
  | read k stream spawned buffer =>
    cases answer with
    | closed => exact .refl _ w
    | read =>
      exact ⟨fun _ _ h => h, fun _ _ h => h, Or.inl rfl, Or.inl rfl,
        Or.inr ⟨k, stream, rfl, spawned⟩, Or.inl rfl⟩
    | notRead => exact .refl _ w
  | push k stream chunk before spawned received buffer =>
    cases answer with
    | pushed =>
      exact ⟨fun _ _ h => h, fun _ _ h => h, Or.inl rfl, Or.inl rfl,
        Or.inr ⟨k, stream, rfl, spawned⟩, Or.inl rfl⟩
  | enter n input unsent => cases answer with | locked free => exact .locked free
  | ask n input lock unsent => cases answer with | writer => exact .refl _ w
  | write n input stream byte rest attached sending part =>
    cases answer with
    | written =>
      exact ⟨fun _ _ h => h, fun _ _ h => h, Or.inl rfl, Or.inl rfl, Or.inl ⟨rfl, rfl⟩,
        Or.inr ⟨sending.lock, _, rfl, rfl⟩⟩
    | notWritten => exact .refl _ w
  | finish n input reply lock replied => cases answer with | unlocked => exact .unlocked lock
  | tell n => cases answer with | buffer => exact .refl _ w

/-! What a frame means for another task. -/

variable {other : ConsoleTask}

theorem Frame.attached (frame : Frame task w u) {stream : StreamId}
    (h : w.writer = some stream) : u.writer = some stream := by
  cases frame.writer with
  | inl hsame => exact hsame.trans h
  | inr hset =>
    rw [hset.2] at h
    cases h

theorem Frame.writer_of_lock (frame : Frame task w u) (distinct : other ≠ task)
    (lock : w.lock = some other) : u.writer = w.writer := by
  cases frame.writer with
  | inl hsame => exact hsame
  | inr hset => exact absurd (Option.some.inj (lock.symm.trans hset.1)) distinct

theorem Frame.unread (frame : Frame task w u) (distinct : other ≠ task) {stream : StreamId}
    (own : w.streams[stream]? = some other) (set : w.writer = some stream)
    (unread : w.spawned = []) : u.spawned = [] := by
  cases frame.spawned with
  | inl hsame => exact hsame.trans unread
  | inr hspawned =>
    obtain ⟨stream', -, hset, hown⟩ := hspawned
    obtain rfl := Option.some.inj (set.symm.trans hset)
    exact absurd (Option.some.inj (own.symm.trans hown)) distinct

theorem Frame.getElem?_spawned (frame : Frame task w u) {k : Nat} {stream : StreamId}
    (spawned : w.spawned[k]? = some stream) : u.spawned[k]? = some stream := by
  cases frame.spawned with
  | inl hsame => rw [hsame, spawned]
  | inr hspawned =>
    obtain ⟨stream', happend, -⟩ := hspawned
    rw [happend, List.getElem?_append_left (List.getElem?_eq_some_iff.mp spawned).1, spawned]

theorem Sound.position (sound : Sound w) {k : Nat} {stream : StreamId}
    (spawned : w.spawned[k]? = some stream) : k = 0 := by
  have hlt := (List.getElem?_eq_some_iff.mp spawned).1
  have hone := sound.readers
  omega

theorem Frame.unspooled (frame : Frame task w u) (sound : Sound w)
    (distinct : ConsoleTask.spool 0 ≠ task) :
    u.chunks = w.chunks ∧ u.received = w.received ∧ u.buffer = w.buffer := by
  cases frame.read with
  | inl hsame => exact ⟨by rw [ConsoleWorld.chunks, ConsoleWorld.chunks, hsame.1], hsame⟩
  | inr hread =>
    obtain ⟨k, stream, rfl, hspawned⟩ := hread
    obtain rfl := sound.position hspawned
    exact absurd rfl distinct

theorem Frame.unsent (frame : Frame task w u) (distinct : other ≠ task)
    (unsent : ∀ entry ∈ w.sent, entry.1 ≠ other) : ∀ entry ∈ u.sent, entry.1 ≠ other := by
  cases frame.sent with
  | inl hsame => rwa [hsame]
  | inr hsent =>
    obtain ⟨-, last, happend, rfl⟩ := hsent
    rw [happend]
    intro entry hmem
    cases List.mem_append.mp hmem with
    | inl hold => exact unsent entry hold
    | inr hnew =>
      obtain rfl := List.mem_singleton.mp hnew
      exact Ne.symm distinct

theorem Frame.sentBy (frame : Frame task w u) (distinct : other ≠ task) :
    u.sentBy other = w.sentBy other := by
  cases frame.sent with
  | inl hsame => rw [ConsoleWorld.sentBy, ConsoleWorld.sentBy, hsame]
  | inr hsent =>
    obtain ⟨-, last, happend, rfl⟩ := hsent
    have hsentBy := sentBy_append w last other
    rw [if_neg (Ne.symm distinct), List.append_nil] at hsentBy
    rw [ConsoleWorld.sentBy, happend]
    exact hsentBy

theorem Frame.sending (frame : Frame task w u) (distinct : other ≠ task)
    (sending : Sending w other) : Sending u other := by
  refine ⟨frame.lock other distinct sending.lock, ?_⟩
  cases frame.sent with
  | inl hsame => exact hsame ▸ sending.latest
  | inr hsent => exact absurd (Option.some.inj (sending.lock.symm.trans hsent.1)) distinct

/-- What is asserted of a task stands under the calls of the others. -/
theorem At.undisturbed {p : Option (ConsoleProgram Ended)} (h : At socketPath w other p)
    (sound : Sound w) (frame : Frame task w u) (distinct : other ≠ task) :
    At socketPath u other p := by
  cases h with
  | noAttach n => exact .noAttach n
  | connect n => exact .connect n
  | claim n stream own => exact .claim n stream (frame.streams stream _ own)
  | look n stream own lock =>
    exact .look n stream (frame.streams stream _ own) (frame.lock _ distinct lock)
  | leave n lock => exact .leave n (frame.lock _ distinct lock)
  | take n stream own lock free =>
    exact .take n stream (frame.streams stream _ own) (frame.lock _ distinct lock)
      ((frame.writer_of_lock distinct lock).trans free)
  | taken n stream own lock set unread =>
    exact .taken n stream (frame.streams stream _ own) (frame.lock _ distinct lock)
      (frame.attached set) (frame.unread distinct own set unread)
  | spawn n stream own set unread =>
    exact .spawn n stream (frame.streams stream _ own) (frame.attached set)
      (frame.unread distinct own set unread)
  | attached n result => exact .attached n result
  | noSpool k quiet =>
    refine .noSpool k fun hk => ?_
    obtain rfl := hk
    obtain ⟨-, hreceived, hbuffer⟩ := frame.unspooled sound distinct
    rw [hreceived, hbuffer]
    exact quiet rfl
  | read k stream spawned buffer =>
    obtain rfl := sound.position spawned
    obtain ⟨hchunks, -, hbuffer⟩ := frame.unspooled sound distinct
    exact .read 0 stream (frame.getElem?_spawned spawned) (by rw [hbuffer, hchunks]; exact buffer)
  | push k stream chunk before spawned received buffer =>
    obtain rfl := sound.position spawned
    obtain ⟨hchunks, -, hbuffer⟩ := frame.unspooled sound distinct
    exact .push 0 stream chunk before (frame.getElem?_spawned spawned) (hchunks.trans received)
      (hbuffer ▸ buffer)
  | spooled k stream again spawned buffer =>
    obtain rfl := sound.position spawned
    obtain ⟨hchunks, -, hbuffer⟩ := frame.unspooled sound distinct
    exact .spooled 0 stream again (frame.getElem?_spawned spawned)
      (by rw [hbuffer, hchunks]; exact buffer)
  | noInput n input unsent => exact .noInput n input (frame.unsent distinct unsent)
  | enter n input unsent => exact .enter n input (frame.unsent distinct unsent)
  | ask n input lock unsent =>
    exact .ask n input (frame.lock _ distinct lock) (frame.unsent distinct unsent)
  | write n input stream byte rest attached sending part =>
    exact .write n input stream byte rest (frame.attached attached)
      (frame.sending distinct sending) (by rw [frame.sentBy distinct]; exact part)
  | finish n input reply lock replied =>
    exact .finish n input reply (frame.lock _ distinct lock)
      (by rw [frame.sentBy distinct]; exact replied)
  | answered n input reply replied =>
    exact .answered n input reply (by rw [frame.sentBy distinct]; exact replied)
  | noHistory n => exact .noHistory n
  | tell n => exact .tell n
  | told n reply => exact .told n reply

theorem Sound.unread (sound : Sound w) (free : w.writer = none) :
    w.spawned = [] ∧ w.received = [] ∧ w.sent = [] := by
  refine ⟨List.eq_nil_iff_forall_not_mem.mpr fun stream hmem => ?_,
    List.eq_nil_iff_forall_not_mem.mpr fun entry hmem => ?_,
    List.eq_nil_iff_forall_not_mem.mpr fun entry hmem => ?_⟩
  · exact Option.some_ne_none _ ((sound.reader stream hmem).symm.trans free)
  · exact Option.some_ne_none _ ((sound.received entry hmem).symm.trans free)
  · exact Option.some_ne_none _ ((sound.sent entry hmem).1.symm.trans free)

/-- Where only the lock, the connections or the buffer change. -/
theorem Sound.congr (sound : Sound w) (spawned : u.spawned = w.spawned)
    (writer : u.writer = w.writer) (received : u.received = w.received) (sent : u.sent = w.sent) :
    Sound u := by
  refine ⟨?_, ?_, ?_, ?_, ?_⟩
  · rw [spawned]
    exact sound.readers
  · rw [spawned, writer]
    exact sound.reader
  · rw [received, writer]
    exact sound.received
  · rw [sent, writer]
    exact sound.sent
  · rw [sent]
    exact sound.contiguous

theorem Sound.called (sound : Sound w) (h : At socketPath w task (some (.call c next)))
    (answer : Answers task w c r u) : Sound u := by
  cases answer with
  | connected => exact sound.congr rfl rfl rfl rfl
  | notConnected err => exact sound
  | locked free => exact sound.congr rfl rfl rfl rfl
  | unlocked => exact sound.congr rfl rfl rfl rfl
  | writer => exact sound
  | writerSet stream =>
    cases h with
    | take n _ own lock free =>
      obtain ⟨hspawned, hreceived, hsent⟩ := sound.unread free
      exact ⟨sound.readers, by simp [hspawned], by simp [hreceived], by simp [hsent],
        sound.contiguous⟩
  | spawned stream =>
    cases h with
    | spawn n _ own set unread =>
      exact ⟨by simp [unread], by simp [unread, set], sound.received, sound.sent,
        sound.contiguous⟩
  | closed stream => exact sound
  | read stream byte bytes fits =>
    cases h with
    | read k _ spawned buffer =>
      refine ⟨sound.readers, sound.reader, fun entry hmem => ?_, sound.sent, sound.contiguous⟩
      cases List.mem_append.mp hmem with
      | inl hold => exact sound.received entry hold
      | inr hnew =>
        obtain rfl := List.mem_singleton.mp hnew
        exact sound.reader stream (List.mem_of_getElem? spawned)
  | notRead stream err => exact sound
  | pushed chunk => exact sound.congr rfl rfl rfl rfl
  | written stream bytes n part =>
    cases h with
    | write id input _ byte rest attached sending sentPart =>
      refine ⟨sound.readers, sound.reader, sound.received, fun entry hmem => ?_, ?_⟩
      · cases List.mem_append.mp hmem with
        | inl hold => exact sound.sent entry hold
        | inr hnew =>
          obtain rfl := List.mem_singleton.mp hnew
          exact ⟨attached, id, input, rfl⟩
      · exact sound.contiguous.append sending.latest
  | notWritten stream bytes err => exact sound
  | buffer => exact sound

/-- A task that has the lock, and the rest of its bytes to send. -/
theorem at_writing {n : Nat} {input rest : List UInt8} {stream : StreamId}
    (attached : w.writer = some stream) (sending : Sending w (.input n input))
    (part : w.sentBy (.input n input) ++ rest = input) :
    At socketPath w (.input n input) (some (writing input stream rest)) := by
  cases rest with
  | nil =>
    rw [writing_nil]
    rw [List.append_nil] at part
    exact .finish n input _ sending.lock ⟨by rw [part], fun _ => ⟨rfl, part⟩, by simp⟩
  | cons byte rest =>
    rw [writing_cons]
    exact .write n input stream byte rest attached sending part

theorem replied_failed {sent input : List UInt8} (part : sent <+: input) (err : String) :
    Replied sent input ⟨0, some err⟩ :=
  ⟨part, by simp, fun _ => rfl⟩

theorem At.called (h : At socketPath w task (some (.call c next))) (sound : Sound w)
    (answer : Answers task w c r u) : At socketPath u task (some (next r)) := by
  cases h with
  | connect n =>
    cases answer with
    | connected => exact .claim n _ (by simp)
    | notConnected err => exact .attached n _
  | claim n stream own => cases answer with | locked free => exact .look n stream own rfl
  | look n stream own lock =>
    cases answer with
    | writer =>
      cases hwriter : w.writer with
      | none => exact .take n stream own lock hwriter
      | some attached => exact .leave n lock
  | leave n lock => cases answer with | unlocked => exact .attached n _
  | take n stream own lock free =>
    cases answer with
    | writerSet => exact .taken n stream own lock rfl (sound.unread free).1
  | taken n stream own lock set unread =>
    cases answer with
    | unlocked => exact .spawn n stream own set unread
  | spawn n stream own set unread => cases answer with | spawned => exact .attached n _
  | read k stream spawned buffer =>
    cases answer with
    | closed => exact .spooled k stream false spawned buffer
    | read _ byte bytes fits =>
      exact .push k stream _ w.chunks spawned (by simp [ConsoleWorld.chunks]) buffer
    | notRead _ err => exact .spooled k stream false spawned buffer
  | push k stream chunk before spawned received buffer =>
    cases answer with
    | pushed =>
      refine .spooled k stream true spawned ?_
      change (w.buffer.push chunk).Spools w.chunks.flatten
      rw [received, List.flatten_append, List.flatten_singleton]
      exact ConsoleBuffer.spools_push buffer chunk
  | enter n input unsent =>
    cases answer with
    | locked free => exact .ask n input rfl unsent
  | ask n input lock unsent =>
    cases answer with
    | writer =>
      have hnone := sentBy_eq_nil unsent
      cases hwriter : w.writer with
      | none =>
        refine .finish n input _ lock ?_
        rw [hnone]
        exact replied_failed List.nil_prefix _
      | some stream =>
        exact at_writing hwriter ⟨lock, Or.inl unsent⟩ (by rw [hnone, List.nil_append])
  | write n input stream byte rest attached sending part =>
    have hprefix : w.sentBy (.input n input) <+: input := ⟨byte :: rest, part⟩
    cases answer with
    | written _ _ taken fits =>
      have hsentBy := sentBy_append w (.input n input, stream, (byte :: rest).take taken)
        (.input n input)
      rw [if_pos rfl] at hsentBy
      cases taken with
      | zero =>
        refine .finish n input _ sending.lock ?_
        rw [hsentBy, List.take_zero, List.append_nil]
        exact replied_failed hprefix _
      | succ taken =>
        refine at_writing attached ⟨sending.lock, Or.inr ⟨w.sent, _, rfl, rfl⟩⟩ ?_
        rw [hsentBy, List.take_succ_cons, List.append_assoc, List.cons_append,
          List.take_append_drop]
        exact part
    | notWritten _ _ err => exact .finish n input _ sending.lock (replied_failed hprefix _)
  | finish n input reply lock replied =>
    cases answer with
    | unlocked => exact .answered n input reply replied
  | tell n => cases answer with | buffer => exact .told n _

end Calls

/-! Whole runs. -/

section Runs

open Transition

variable {socketPath : String} {x y : Session} {act : Act}

/-- The chunk that was read and is not in the buffer yet. -/
def inHand (x : Session) : Option (List UInt8) :=
  match x.threads.get (.spool 0) with
  | some (.call (.push chunk) _) => some chunk
  | _ => none

abbrev Kept (socketPath : String) : Session → Prop :=
  Pool.Holds Sound fun task p w => At socketPath w task p

theorem kept_opened : Kept socketPath opened := by
  refine ⟨⟨by simp [opened, ConsoleWorld.start], by simp [opened, ConsoleWorld.start],
    by simp [opened, ConsoleWorld.start], by simp [opened, ConsoleWorld.start], ?_⟩, ?_⟩
  · intro a b c hsub
    simp [opened, ConsoleWorld.start] at hsub
  · intro task
    rw [opened, AHashMap.get_empty]
    cases task with
    | attach n => exact .noAttach n
    | spool k => exact .noSpool k fun _ => ⟨rfl, ConsoleBuffer.spools_default⟩
    | input n input => exact .noInput n input (by simp [ConsoleWorld.start])
    | history n => exact .noHistory n

theorem at_started {task : ConsoleTask} {p : ConsoleProgram Ended} {w : ConsoleWorld}
    (sound : Sound w) (h : At socketPath w task none) (starts : Starts socketPath w task p) :
    At socketPath w task (some p) := by
  cases starts with
  | attach n =>
    rw [attachTask_eq]
    exact .connect n
  | spool k stream spawned =>
    obtain rfl := sound.position spawned
    cases h with
    | noSpool _ quiet =>
      obtain ⟨hreceived, hbuffer⟩ := quiet rfl
      rw [spoolTask_eq]
      refine .read 0 stream spawned ?_
      rw [ConsoleWorld.chunks, hreceived]
      exact hbuffer
  | input n input =>
    cases h with
    | noInput _ _ unsent =>
      rw [inputTask_eq]
      exact .enter n input unsent
  | history n => exact .tell n

theorem at_resumed {task : ConsoleTask} {ended : Ended} {p : ConsoleProgram Ended}
    {w : ConsoleWorld} (h : At socketPath w task (some (.done ended)))
    (resumes : Resumes socketPath task ended p) : At socketPath w task (some p) := by
  cases resumes with
  | attach n err =>
    rw [attachTask_eq]
    exact .connect n
  | spool k stream =>
    cases h with
    | spooled _ _ _ spawned buffer =>
      rw [spoolTask_eq]
      exact .read k stream spawned buffer

theorem kept_step (h : Kept socketPath x) (hstep : Step socketPath x act y) :
    Kept socketPath y := by
  refine h.step ?_ ?_ ?_ ?_ ?_ ?_ hstep
  · exact fun _ _ _ sound hat starts => at_started sound hat starts
  · exact fun _ _ _ _ _ _ sound hat answer =>
      ⟨sound.called hat answer, hat.called sound answer⟩
  · exact fun _ _ _ _ _ _ sound hat answer _ _ distinct hother =>
      hother.undisturbed sound (hat.frame answer) distinct
  · exact fun _ _ _ _ hat resumes => at_resumed hat resumes
  · exact fun _ _ _ _ kills => kills.elim
  · exact fun _ _ change => change.elim

theorem sentBy_prefix (h : Kept socketPath x) (n : Nat) (input : List UInt8) :
    x.world.sentBy (.input n input) <+: input := by
  have hat := h.threads (.input n input)
  generalize x.threads.get (.input n input) = p at hat
  cases hat with
  | noInput _ _ unsent => exact sentBy_eq_nil unsent ▸ List.nil_prefix
  | enter _ _ unsent => exact sentBy_eq_nil unsent ▸ List.nil_prefix
  | ask _ _ lock unsent => exact sentBy_eq_nil unsent ▸ List.nil_prefix
  | write _ _ stream byte rest attached sending part => exact ⟨byte :: rest, part⟩
  | finish _ _ reply lock replied => exact replied.part
  | answered _ _ reply replied => exact replied.part

theorem history_of_spools {buffer : ConsoleBuffer} {output : List UInt8}
    (h : buffer.Spools output) : buffer.history = output.rtake consoleSpoolSize := by
  rw [ConsoleBuffer.history_eq, h.ring]

theorem spooled_but_inHand (h : Kept socketPath x) :
    ∃ spooled, x.world.chunks = spooled ++ (inHand x).toList ∧
      x.world.buffer.history = spooled.flatten.rtake consoleSpoolSize := by
  have hat := h.threads (.spool 0)
  unfold inHand
  generalize x.threads.get (.spool 0) = p at hat ⊢
  cases hat with
  | noSpool _ quiet =>
    obtain ⟨hreceived, hbuffer⟩ := quiet rfl
    exact ⟨[], by simp [ConsoleWorld.chunks, hreceived], history_of_spools hbuffer⟩
  | read _ stream spawned buffer =>
    exact ⟨x.world.chunks, by simp, history_of_spools buffer⟩
  | push _ stream chunk before spawned received buffer =>
    exact ⟨before, received, history_of_spools buffer⟩
  | spooled _ stream again spawned buffer =>
    exact ⟨x.world.chunks, by simp, history_of_spools buffer⟩

/-- The writer is not replaced. -/
def SameWriter (x y : Session) : Prop :=
  ∀ stream, x.world.writer = some stream → y.world.writer = some stream

theorem SameWriter.trans {x y z : Session} (first : SameWriter x y) (second : SameWriter y z) :
    SameWriter x z :=
  fun stream set => second stream (first stream set)

theorem sameWriter_step (h : Kept socketPath x) (hstep : Step socketPath x act y) :
    SameWriter x y := by
  intro stream set
  cases hstep with
  | start task p fresh started => exact set
  | work task c next r w running answer => exact ((h.running running).frame answer).attached set
  | resume task a p ended again => exact set
  | kill task killed => exact killed.elim
  | outside w change => exact change.elim

/-- In every state of every run: there is at most one reader, of the stream that input is
written to, and this stream is the first one that a task put in place and stays it; the
history is the end of what was read, but for a chunk that is on its way into it; and the
guest gets the inputs one after the other, of each the first bytes, and all of them if
the reply says so. -/
theorem console_session (run : List (Act × Session)) (isRun : IsRun (Step socketPath) opened run) :
    AllStates (fun x => Sound x.world ∧
      (∃ spooled, x.world.chunks = spooled ++ (inHand x).toList ∧
        x.world.buffer.history = spooled.flatten.rtake consoleSpoolSize) ∧
      (∀ n input, x.world.sentBy (.input n input) <+: input) ∧
      (∀ n input reply, x.threads.get (.input n input) = some (.done (.answered reply)) →
        Replied (x.world.sentBy (.input n input)) input reply) ∧
      SameWriter x (final opened run)) opened run := by
  have hkept : AllStates (Kept socketPath) opened run :=
    allStates_of_step (fun _ _ _ h _ hstep => kept_step h hstep) opened run kept_opened isRun
      (allSteps_true opened run)
  have hrun : IsRun (fun x act y => Kept socketPath x ∧ Step socketPath x act y) opened run :=
    isRun_of_invariant (P := Kept socketPath) (fun _ _ _ h _ hstep => kept_step h hstep)
      (fun _ _ _ h _ hstep => ⟨h, hstep⟩) opened run kept_opened isRun (allSteps_true opened run)
  have hwriter : AllStates (fun x => SameWriter x (final opened run)) opened run :=
    allStates_final (R := SameWriter) (fun _ _ set => set) (fun _ _ _ first second => first.trans second)
      (fun _ _ _ h => sameWriter_step h.1 h.2) opened run hrun
  refine allStates_mono ?_ ((allStates_and_iff opened run).mpr ⟨hkept, hwriter⟩)
  rintro x ⟨h, hfinal⟩
  refine ⟨h.world, spooled_but_inHand h, sentBy_prefix h, fun n input reply hget => ?_, hfinal⟩
  cases h.running hget with
  | answered _ _ _ replied => exact replied

/-! The socket is attached, and an input sent of which the guest takes one byte. -/

def shortWrite : List (Act × Session) :=
  let attach := ConsoleTask.attach 0
  let input := ConsoleTask.input 0 [104, 105]
  let connected : ConsoleWorld := { ConsoleWorld.start with streams := [attach] }
  let claimed := { connected with lock := some attach }
  let set := { claimed with writer := some 0 }
  let attached := { set with lock := none }
  let asking := { attached with lock := some input }
  let sent := { asking with sent := [(input, 0, [104])] }
  let t0 := AHashMap.empty.insert attach (attachTask "ch.sock")
  let t1 := t0.insert attach (.call .lockWriter fun _ => .call .writer (look 0))
  let t2 := t1.insert attach (.call .writer (look 0))
  let t3 := t2.insert attach (look 0 none)
  let t4 := t3.insert attach (.call .unlockWriter fun _ => .call (.spawn 0) fun _ =>
    .done (.attached (.ok ())))
  let t5 := t4.insert attach (.call (.spawn 0) fun _ => .done (.attached (.ok ())))
  let t6 := t5.insert input (inputTask [104, 105])
  let t7 := t6.insert input (.call .writer (asked [104, 105]))
  let t8 := t7.insert input (asked [104, 105] (some 0))
  let t9 := t8.insert input (wrote [104, 105] 0 [105] (.ok 1))
  [(.start attach, ⟨.start, t0⟩),
    (.work attach ⟨.connect, .ok 0⟩, ⟨connected, t1⟩),
    (.work attach ⟨.lockWriter, ()⟩, ⟨claimed, t2⟩),
    (.work attach ⟨.writer, none⟩, ⟨claimed, t3⟩),
    (.work attach ⟨.setWriter 0, ()⟩, ⟨set, t4⟩),
    (.work attach ⟨.unlockWriter, ()⟩, ⟨attached, t5⟩),
    (.start input, ⟨attached, t6⟩),
    (.work input ⟨.lockWriter, ()⟩, ⟨asking, t7⟩),
    (.work input ⟨.writer, some 0⟩, ⟨asking, t8⟩),
    (.work input ⟨.write 0 [104, 105], .ok 1⟩, ⟨sent, t9⟩)]

theorem isRun_shortWrite : IsRun (Step "ch.sock") opened shortWrite := by
  refine ⟨.start _ _ rfl (Starts.attach 0), ?_, ?_, ?_, ?_, ?_, .start _ _ rfl (Starts.input 0 _),
    ?_, ?_, ?_, trivial⟩
  · exact Pool.Step.call (AHashMap.get_insert_self _ _ _) (attachTask_eq _) rfl Answers.connected
  · exact Pool.Step.call (AHashMap.get_insert_self _ _ _) rfl rfl (Answers.locked rfl)
  · exact Pool.Step.call (AHashMap.get_insert_self _ _ _) rfl rfl Answers.writer
  · exact Pool.Step.call (AHashMap.get_insert_self _ _ _) rfl rfl (Answers.writerSet 0)
  · exact Pool.Step.call (AHashMap.get_insert_self _ _ _) rfl rfl Answers.unlocked
  · exact Pool.Step.call (AHashMap.get_insert_self _ _ _) (inputTask_eq _) rfl (Answers.locked rfl)
  · exact Pool.Step.call (AHashMap.get_insert_self _ _ _) rfl rfl Answers.writer
  · exact Pool.Step.call (AHashMap.get_insert_self _ _ _) (writing_cons _ _ _ _) rfl
      (Answers.written 0 _ 1 (by simp))

theorem console_session_short_write :
    (final opened shortWrite).world.writer = some 0 ∧
      Sound (final opened shortWrite).world ∧
      (final opened shortWrite).world.sentBy (.input 0 [104, 105]) <+: [104, 105] := by
  have h := final_of_allStates _ _ (console_session shortWrite isRun_shortWrite)
  exact ⟨rfl, h.1, h.2.2.1 0 [104, 105]⟩

end Runs

end Console

end Odorobo
