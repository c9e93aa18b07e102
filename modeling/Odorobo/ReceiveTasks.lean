import Odorobo.Transition
import Odorobo.VmActors

/-! A VM actor that receives migrations, with the tasks that work for it: one waits
for the migration stream, one sends word when that task has ended, and one sends
the actor what it has to prepare. Messages are handled in the order they arrive,
but nothing orders the arrivals of different tasks. -/

namespace Odorobo

/-- A notice carries the address whose receiver has ended; no handler reads it. -/
inductive VmMessage where
  | migrateVMReceive (msg : MigrateVMReceive)
  | prepMigration (msg : PrepMigration)
  | migrationFinished (address : String)
  deriving DecidableEq

/-- `receivers` wait for a stream, `finishing` and `preparing` are about to send
their message. Every migration that was accepted and every preparation that was
handled is on record; the actor reads neither list. -/
structure ReceivingVm where
  actor : VMActor
  mailbox : List VmMessage
  receivers : List String
  finishing : List String
  preparing : List PrepMigration
  accepted : List PrepMigration
  prepared : List PrepMigration
  deriving DecidableEq

namespace ReceivingVm

def start (actor : VMActor) : ReceivingVm := ⟨actor, [], [], [], [], [], []⟩

/-- `received` is the address of a new receiver, should the message need one. -/
inductive Move where
  | request (msg : MigrateVMReceive)
  | receiverEnds (position : Nat)
  | finishTells (position : Nat)
  | prepTells (position : Nat)
  | handle (received : Except String String)

/-- A migration state that was not there before comes with its tasks. -/
def migrateVMReceive (x : ReceivingVm) (msg : MigrateVMReceive) (received : Except String String) :
    ReceivingVm :=
  let actor := (x.actor.migrateVMReceive msg received).2
  match x.actor.migrationState, actor.migrationState with
  | none, some started =>
    let prep : PrepMigration := ⟨x.actor.vmid, msg.config⟩
    { x with
      actor := actor
      receivers := x.receivers ++ [started.listeningAddress]
      preparing := x.preparing ++ [prep]
      accepted := x.accepted ++ [prep] }
  | _, _ => { x with actor := actor }

def handled (x : ReceivingVm) (received : Except String String) : VmMessage → ReceivingVm
  | .migrateVMReceive msg => x.migrateVMReceive msg received
  | .prepMigration msg =>
    { x with actor := x.actor.prepMigration msg, prepared := x.prepared ++ [msg] }
  | .migrationFinished _ => { x with actor := x.actor.migrationFinished }

def next (x : ReceivingVm) : Move → Option ReceivingVm
  | .request msg => some { x with mailbox := x.mailbox ++ [.migrateVMReceive msg] }
  | .receiverEnds position =>
    match x.receivers[position]? with
    | some address =>
      some { x with
        receivers := x.receivers.eraseIdx position, finishing := x.finishing ++ [address] }
    | none => none
  | .finishTells position =>
    match x.finishing[position]? with
    | some address =>
      some { x with
        finishing := x.finishing.eraseIdx position
        mailbox := x.mailbox ++ [.migrationFinished address] }
    | none => none
  | .prepTells position =>
    match x.preparing[position]? with
    | some msg =>
      some { x with
        preparing := x.preparing.eraseIdx position, mailbox := x.mailbox ++ [.prepMigration msg] }
    | none => none
  | .handle received =>
    match x.mailbox with
    | message :: rest => some ({ x with mailbox := rest }.handled received message)
    | [] => none

def Step (x : ReceivingVm) (move : Move) (y : ReceivingVm) : Prop := x.next move = some y

/-! What is under way. -/

def finishedOf : VmMessage → Option String
  | .migrationFinished address => some address
  | _ => none

def prepOf : VmMessage → Option PrepMigration
  | .prepMigration msg => some msg
  | _ => none

/-- The receivers that run and those whose notice is on its way. -/
def outstanding (x : ReceivingVm) : List String :=
  x.receivers ++ x.finishing ++ x.mailbox.filterMap finishedOf

def awaited (x : ReceivingVm) : List PrepMigration :=
  x.preparing ++ x.mailbox.filterMap prepOf

/-- The address of the migration that the actor is in. -/
def ongoing (x : ReceivingVm) : Option String :=
  x.actor.migrationState.map MigrationState.listeningAddress

/-- What the instance keeps after the preparations. -/
def keptConfig (initial : Option VmConfig) (prepared : List PrepMigration) : Option VmConfig :=
  match prepared.getLast? with
  | none => initial
  | some msg => (toVmConfig msg.config).toOption

/-- The actor is in a migration as long as one receiver is under way, there is
one preparation for each migration it accepted, and the instance keeps the
configuration of the latest one. -/
structure Sound (initial : Option VmConfig) (x : ReceivingVm) : Prop where
  receivers : x.outstanding.Perm x.ongoing.toList
  preparations : x.accepted.Perm (x.prepared ++ x.awaited)
  translated : ∀ msg ∈ x.accepted, ∃ config, toVmConfig msg.config = .ok config
  kept : x.actor.instanceConfig = keptConfig initial x.prepared

/-! What a message of the migration does to the actor. -/

/-- The ways in which a receive message can be answered. -/
inductive Answered (actor : VMActor) (msg : MigrateVMReceive) (received : Except String String) :
    MigrateVMReceiveReply → VMActor → Prop where
  | busy (state : MigrationState) : actor.migrationState = some state →
      Answered actor msg received ⟨state.listeningAddress, none⟩ actor
  | refused (error : String) : actor.migrationState = none →
      Answered actor msg received ⟨"", some error⟩ actor
  | started (address : String) (config : VmConfig) : actor.migrationState = none →
      toVmConfig msg.config = .ok config → received = .ok address →
      Answered actor msg received ⟨address, none⟩
        { actor with migrationState := some ⟨address, config⟩ }

theorem answered_spec (actor : VMActor) (msg : MigrateVMReceive) (received : Except String String) :
    Answered actor msg received (actor.migrateVMReceive msg received).1
      (actor.migrateVMReceive msg received).2 := by
  unfold VMActor.migrateVMReceive
  cases hstate : actor.migrationState with
  | some state => exact .busy state hstate
  | none =>
    cases hconfig : toVmConfig msg.config with
    | error error => exact .refused error hstate
    | ok config =>
      cases hreceived : received with
      | error error => exact .refused error hstate
      | ok address => exact .started address config hstate hconfig rfl

/-- The ways in which a receive message can change the system. -/
inductive Received (x : ReceivingVm) (msg : MigrateVMReceive) :
    MigrateVMReceiveReply → ReceivingVm → Prop where
  | busy (state : MigrationState) : x.actor.migrationState = some state →
      Received x msg ⟨state.listeningAddress, none⟩ x
  | refused (error : String) : x.actor.migrationState = none → Received x msg ⟨"", some error⟩ x
  | started (address : String) (config : VmConfig) : x.actor.migrationState = none →
      toVmConfig msg.config = .ok config →
      Received x msg ⟨address, none⟩
        { x with
          actor := { x.actor with migrationState := some ⟨address, config⟩ }
          receivers := x.receivers ++ [address]
          preparing := x.preparing ++ [⟨x.actor.vmid, msg.config⟩]
          accepted := x.accepted ++ [⟨x.actor.vmid, msg.config⟩] }

theorem received_spec (x : ReceivingVm) (msg : MigrateVMReceive) (received : Except String String) :
    Received x msg (x.actor.migrateVMReceive msg received).1 (x.migrateVMReceive msg received) := by
  have hanswered := answered_spec x.actor msg received
  unfold migrateVMReceive
  generalize x.actor.migrateVMReceive msg received = answer at hanswered ⊢
  obtain ⟨reply, actor⟩ := answer
  cases hanswered with
  | busy state hstate =>
    rw [hstate]
    exact .busy state hstate
  | refused error hstate =>
    dsimp only
    rw [hstate]
    exact .refused error hstate
  | started address config hstate hconfig hreceived =>
    rw [hstate]
    exact .started address config hstate hconfig

/-! What each move keeps. -/

section Moves

variable {initial : Option VmConfig} {x : ReceivingVm}

theorem perm_moved {α : Type} {xs : List α} {i : Nat} {a : α} (h : xs[i]? = some a)
    (ys zs : List α) : (xs.eraseIdx i ++ (ys ++ [a]) ++ zs).Perm (xs ++ ys ++ zs) := by
  obtain ⟨hi, rfl⟩ := List.getElem?_eq_some_iff.mp h
  have hback : (xs[i] :: xs.eraseIdx i).Perm xs := List.getElem_cons_eraseIdx_perm hi
  rw [← List.append_assoc]
  refine List.Perm.append_right zs ?_
  exact (List.perm_append_singleton xs[i] _).trans (hback.append_right ys)

theorem Sound.request (h : Sound initial x) (msg : MigrateVMReceive) :
    Sound initial { x with mailbox := x.mailbox ++ [.migrateVMReceive msg] } where
  receivers := by
    have hsame : (x.mailbox ++ [VmMessage.migrateVMReceive msg]).filterMap finishedOf =
        x.mailbox.filterMap finishedOf := by simp [finishedOf]
    rw [outstanding, hsame]
    exact h.receivers
  preparations := by
    have hsame : (x.mailbox ++ [VmMessage.migrateVMReceive msg]).filterMap prepOf =
        x.mailbox.filterMap prepOf := by simp [prepOf]
    rw [awaited, hsame]
    exact h.preparations
  translated := h.translated
  kept := h.kept

theorem Sound.receiverEnds (h : Sound initial x) {position : Nat} {address : String}
    (hat : x.receivers[position]? = some address) :
    Sound initial { x with
      receivers := x.receivers.eraseIdx position, finishing := x.finishing ++ [address] } where
  receivers := (perm_moved hat _ _).trans h.receivers
  preparations := h.preparations
  translated := h.translated
  kept := h.kept

theorem Sound.finishTells (h : Sound initial x) {position : Nat} {address : String}
    (hat : x.finishing[position]? = some address) :
    Sound initial { x with
      finishing := x.finishing.eraseIdx position
      mailbox := x.mailbox ++ [.migrationFinished address] } where
  receivers := by
    have hmoved := perm_moved hat (x.mailbox.filterMap finishedOf) []
    rw [List.append_nil, List.append_nil] at hmoved
    refine List.Perm.trans ?_ h.receivers
    rw [outstanding, outstanding, List.append_assoc, List.append_assoc, List.filterMap_append]
    exact hmoved.append_left x.receivers
  preparations := by
    have hsame : (x.mailbox ++ [VmMessage.migrationFinished address]).filterMap prepOf =
        x.mailbox.filterMap prepOf := by simp [prepOf]
    rw [awaited, hsame]
    exact h.preparations
  translated := h.translated
  kept := h.kept

theorem Sound.prepTells (h : Sound initial x) {position : Nat} {msg : PrepMigration}
    (hat : x.preparing[position]? = some msg) :
    Sound initial { x with
      preparing := x.preparing.eraseIdx position
      mailbox := x.mailbox ++ [.prepMigration msg] } where
  receivers := by
    have hsame : (x.mailbox ++ [VmMessage.prepMigration msg]).filterMap finishedOf =
        x.mailbox.filterMap finishedOf := by simp [finishedOf]
    rw [outstanding, hsame]
    exact h.receivers
  preparations := by
    have hmoved := perm_moved hat (x.mailbox.filterMap prepOf) []
    rw [List.append_nil, List.append_nil] at hmoved
    refine h.preparations.trans (List.Perm.append_left x.prepared ?_)
    rw [awaited, awaited, List.filterMap_append]
    exact hmoved.symm
  translated := h.translated
  kept := h.kept

/-- The actor's side of a migration is free exactly when nothing is outstanding. -/
theorem Sound.outstanding_nil (h : Sound initial x) (idle : x.actor.migrationState = none) :
    x.outstanding = [] := by
  have hperm := h.receivers
  rw [ongoing, idle] at hperm
  exact hperm.eq_nil

theorem Sound.received {rest : List VmMessage} {msg : MigrateVMReceive}
    {reply : MigrateVMReceiveReply} {y : ReceivingVm} (h : Sound initial x)
    (hmail : x.mailbox = .migrateVMReceive msg :: rest)
    (hy : Received { x with mailbox := rest } msg reply y) : Sound initial y := by
  have hrest : Sound initial { x with mailbox := rest } := by
    refine ⟨?_, ?_, h.translated, h.kept⟩
    · have hreceivers := h.receivers
      rw [outstanding, hmail] at hreceivers
      exact hreceivers
    · have hpreparations := h.preparations
      rw [awaited, hmail] at hpreparations
      exact hpreparations
  cases hy with
  | busy state hstate => exact hrest
  | refused error hstate => exact hrest
  | started address config hstate hconfig =>
    refine ⟨?_, ?_, ?_, hrest.kept⟩
    · have hnone := hrest.outstanding_nil hstate
      simp only [outstanding, List.append_eq_nil_iff] at hnone
      obtain ⟨⟨hreceivers, hfinishing⟩, hfinished⟩ := hnone
      simp [outstanding, ongoing, hreceivers, hfinishing, hfinished]
    · have hadded := hrest.preparations.append_right [⟨x.actor.vmid, msg.config⟩]
      refine hadded.trans ?_
      simp only [awaited, List.append_assoc]
      refine List.Perm.append_left _ (List.Perm.append_left _ ?_)
      exact List.perm_append_comm
    · intro prep hprep
      cases List.mem_append.mp hprep with
      | inl hold => exact hrest.translated prep hold
      | inr hnew =>
        rw [List.mem_singleton.mp hnew]
        exact ⟨config, hconfig⟩

/-- A preparation that is waiting in the mailbox is one of an accepted migration. -/
theorem Sound.prep_translated {rest : List VmMessage} {msg : PrepMigration}
    (h : Sound initial x) (hmail : x.mailbox = .prepMigration msg :: rest) :
    ∃ config, toVmConfig msg.config = .ok config := by
  apply h.translated msg
  rw [h.preparations.mem_iff, awaited, hmail]
  simp [prepOf]

theorem Sound.prepHandled {rest : List VmMessage} {msg : PrepMigration}
    (h : Sound initial x) (hmail : x.mailbox = .prepMigration msg :: rest) :
    Sound initial { x with
      mailbox := rest, actor := x.actor.prepMigration msg, prepared := x.prepared ++ [msg] } := by
  obtain ⟨config, hconfig⟩ := h.prep_translated hmail
  have hactor : x.actor.prepMigration msg = { x.actor with instanceConfig := some config } := by
    rw [VMActor.prepMigration, hconfig]
  refine ⟨?_, ?_, h.translated, ?_⟩
  · have hreceivers := h.receivers
    rw [outstanding, hmail] at hreceivers
    rw [hactor]
    exact hreceivers
  · have hpreparations := h.preparations
    rw [awaited, hmail] at hpreparations
    refine hpreparations.trans ?_
    rw [awaited, List.append_assoc]
    refine List.Perm.append_left x.prepared ?_
    exact List.perm_middle
  · rw [hactor, keptConfig, List.getLast?_append, List.getLast?_singleton]
    change some config = (toVmConfig msg.config).toOption
    rw [hconfig]
    rfl

/-- The migration that a notice ends is the one that the actor is in. -/
theorem Sound.finished_ongoing {rest : List VmMessage} {address : String}
    (h : Sound initial x) (hmail : x.mailbox = .migrationFinished address :: rest) :
    x.ongoing = some address := by
  have hmem : address ∈ x.ongoing.toList := by
    rw [← h.receivers.mem_iff, outstanding, hmail]
    simp [finishedOf]
  exact Option.mem_toList.mp hmem

theorem Sound.finishedHandled {rest : List VmMessage} {address : String}
    (h : Sound initial x) (hmail : x.mailbox = .migrationFinished address :: rest) :
    Sound initial { x with mailbox := rest, actor := x.actor.migrationFinished } := by
  refine ⟨?_, ?_, h.translated, h.kept⟩
  · have hperm := h.receivers
    rw [h.finished_ongoing hmail, Option.toList_some, outstanding, hmail] at hperm
    have hlength := hperm.length_eq
    simp only [List.filterMap_cons, finishedOf, List.length_append, List.length_cons,
      List.length_nil] at hlength
    have hnone : x.receivers ++ x.finishing ++ rest.filterMap finishedOf = [] := by
      rw [← List.length_eq_zero_iff, List.length_append, List.length_append]
      omega
    change (x.receivers ++ x.finishing ++ rest.filterMap finishedOf).Perm _
    rw [hnone]
    exact .refl _
  · have hpreparations := h.preparations
    rw [awaited, hmail] at hpreparations
    exact hpreparations

theorem Sound.step {move : Move} {y : ReceivingVm} (h : Sound initial x) (hstep : Step x move y) :
    Sound initial y := by
  cases move with
  | request msg =>
    obtain rfl := Option.some.inj hstep
    exact h.request msg
  | receiverEnds position =>
    simp only [Step, next] at hstep
    split at hstep
    · next address hat =>
      obtain rfl := Option.some.inj hstep
      exact h.receiverEnds hat
    · cases hstep
  | finishTells position =>
    simp only [Step, next] at hstep
    split at hstep
    · next address hat =>
      obtain rfl := Option.some.inj hstep
      exact h.finishTells hat
    · cases hstep
  | prepTells position =>
    simp only [Step, next] at hstep
    split at hstep
    · next msg hat =>
      obtain rfl := Option.some.inj hstep
      exact h.prepTells hat
    · cases hstep
  | handle answer =>
    simp only [Step, next] at hstep
    split at hstep
    · next message rest hmail =>
      obtain rfl := Option.some.inj hstep
      cases message with
      | migrateVMReceive msg => exact h.received hmail (received_spec _ msg answer)
      | prepMigration msg => exact h.prepHandled hmail
      | migrationFinished address => exact h.finishedHandled hmail
    · cases hstep

end Moves

/-- How the actor takes a message: one about a migration that is over never comes,
and while a migration is under way another is not begun. -/
def Taken (x : ReceivingVm) (answer : Except String String) (y : ReceivingVm) :
    VmMessage → Prop
  | .migrationFinished address => x.ongoing = some address ∧ y.ongoing = none
  | .prepMigration msg =>
    ∃ config, toVmConfig msg.config = .ok config ∧ y.actor.instanceConfig = some config
  | .migrateVMReceive msg =>
    let reply := (x.actor.migrateVMReceive msg answer).1
    (reply.error = none → y.ongoing = some reply.listeningAddress) ∧
      (x.ongoing ≠ none ∨ reply.error ≠ none → y.outstanding = x.outstanding ∧ y.actor = x.actor)

theorem Sound.taken {initial : Option VmConfig} {x : ReceivingVm} {message : VmMessage}
    {rest : List VmMessage} (h : Sound initial x) (hmail : x.mailbox = message :: rest)
    (answer : Except String String) :
    Taken x answer ({ x with mailbox := rest }.handled answer message) message := by
  cases message with
  | migrationFinished address => exact ⟨h.finished_ongoing hmail, rfl⟩
  | prepMigration msg =>
    obtain ⟨config, hconfig⟩ := h.prep_translated hmail
    refine ⟨config, hconfig, ?_⟩
    simp [handled, VMActor.prepMigration, hconfig]
  | migrateVMReceive msg =>
    have hout : ({ x with mailbox := rest }).outstanding = x.outstanding := by
      rw [outstanding, outstanding, hmail]
      rfl
    have hreceived := received_spec { x with mailbox := rest } msg answer
    change Received _ msg (x.actor.migrateVMReceive msg answer).1 _ at hreceived
    rw [Taken]
    generalize (x.actor.migrateVMReceive msg answer).1 = reply at hreceived ⊢
    rw [handled]
    generalize { x with mailbox := rest }.migrateVMReceive msg answer = y at hreceived ⊢
    cases hreceived with
    | busy state hstate =>
      refine ⟨fun _ => ?_, fun _ => ⟨hout, rfl⟩⟩
      exact congrArg (Option.map MigrationState.listeningAddress) hstate
    | refused error hstate => exact ⟨fun herror => by simp at herror, fun _ => ⟨hout, rfl⟩⟩
    | started address config hstate hconfig =>
      refine ⟨fun _ => rfl, fun hor => ?_⟩
      have hidle : x.ongoing = none := congrArg (Option.map MigrationState.listeningAddress) hstate
      cases hor with
      | inl hbusy => exact absurd hidle hbusy
      | inr herror => exact absurd rfl herror

end ReceivingVm

end Odorobo
