import Odorobo.Saturating
import Mathlib.Data.List.DropRight

/-! The serial console of a VM: the chunks that were read from its socket, in a
ring that is cut down to a fixed number of bytes after every push. -/

namespace Odorobo

def consoleSpoolSize : Nat := 1024 * 1024

/-- The largest length of the platform. -/
def usizeMax : Nat := 2 ^ 64 - 1

/-- `len` is kept beside the ring, not computed from it. -/
structure ConsoleBuffer where
  ring : List (List UInt8)
  len : Nat

namespace ConsoleBuffer

def default : ConsoleBuffer := ⟨[], 0⟩

/-- The loop that drops the oldest bytes: whole chunks, then the front of one. -/
def trim (ring : List (List UInt8)) (len : Nat) : ConsoleBuffer :=
  if consoleSpoolSize < len then
    let excess := len - consoleSpoolSize
    match ring with
    | [] => ⟨[], 0⟩
    | oldest :: ring =>
      if excess < oldest.length then trim (oldest.drop excess :: ring) (len - excess)
      else trim ring (len - oldest.length)
  else ⟨ring, len⟩
  termination_by (ring.length, len)
  decreasing_by
    -- a split chunk takes its place in the ring again, but the length has gone down
    · simp only [List.length_cons]
      exact Prod.Lex.right _ (by omega)
    · simp only [List.length_cons]
      exact Prod.Lex.left _ _ (by omega)

/-- A chunk longer than the spool is cut before it is pushed. -/
def push (buffer : ConsoleBuffer) (chunk : List UInt8) : ConsoleBuffer :=
  let chunk := if consoleSpoolSize < chunk.length then chunk.drop (chunk.length - consoleSpoolSize)
    else chunk
  trim (buffer.ring ++ [chunk]) (min (buffer.len + chunk.length) usizeMax)

def history (buffer : ConsoleBuffer) : List UInt8 :=
  buffer.ring.foldl (fun history chunk => history ++ chunk) []

end ConsoleBuffer

/-! The last elements of a list. -/

section Rtake

variable {α : Type}

@[simp] theorem length_rtake (xs : List α) (n : Nat) : (xs.rtake n).length = min xs.length n := by
  rw [List.rtake, List.length_drop]
  omega

theorem rtake_of_le {xs : List α} {n : Nat} (h : xs.length ≤ n) : xs.rtake n = xs := by
  rw [List.rtake, Nat.sub_eq_zero_of_le h, List.drop_zero]

theorem rtake_min (xs : List α) (n : Nat) : xs.rtake (min xs.length n) = xs.rtake n := by
  rw [List.rtake, List.rtake]
  congr 1
  omega

theorem rtake_append_of_le (xs : List α) {ys : List α} {n : Nat} (h : n ≤ ys.length) :
    (xs ++ ys).rtake n = ys.rtake n := by
  have hgone : xs.length + ys.length - n - xs.length = ys.length - n := by omega
  rw [List.rtake, List.rtake, List.length_append, List.drop_append, hgone,
    List.drop_of_length_le (by omega), List.nil_append]

/-- Only the last elements of each part can be among the last of the whole. -/
theorem rtake_append_rtake (xs ys : List α) (n : Nat) :
    (xs.rtake n ++ ys.rtake n).rtake n = (xs ++ ys).rtake n := by
  simp only [List.rtake, List.drop_append, List.length_append, List.length_drop, List.drop_drop]
  congr 1
  · by_cases hshort : ys.length ≤ n
    · congr 1
      omega
    · rw [List.drop_of_length_le (by omega), List.drop_of_length_le (by omega)]
  · congr 1
    omega

end Rtake

namespace ConsoleBuffer

theorem history_eq (buffer : ConsoleBuffer) : buffer.history = buffer.ring.flatten := by
  have hfold : ∀ (ring : List (List UInt8)) (start : List UInt8),
      ring.foldl (fun history chunk => history ++ chunk) start = start ++ ring.flatten := by
    intro ring
    induction ring with
    | nil => simp
    | cons chunk ring ih => simp [ih]
  rw [history, hfold, List.nil_append]

/-- The loop keeps the last bytes, and the length goes with them. -/
theorem trim_spec (ring : List (List UInt8)) (len : Nat) (h : len = ring.flatten.length) :
    (trim ring len).ring.flatten = ring.flatten.rtake consoleSpoolSize ∧
      (trim ring len).len = min len consoleSpoolSize := by
  fun_induction trim ring len with
  | case1 len hover =>
    simp at h
    omega
  | case2 len hover excess oldest ring hsplit ih =>
    -- the front of the chunk that is split off is all there was to drop
    have hkept : len - excess = consoleSpoolSize := by omega
    have hdrop : (oldest.drop excess :: ring).flatten = (oldest :: ring).flatten.drop excess := by
      rw [List.flatten_cons, List.flatten_cons, List.drop_append_of_le_length (by omega)]
    have hlen : len - excess = (oldest.drop excess :: ring).flatten.length := by
      rw [hdrop, List.length_drop]
      omega
    obtain ⟨hring, hcount⟩ := ih hlen
    refine ⟨?_, by omega⟩
    rw [hring, rtake_of_le (by omega), hdrop, List.rtake, ← h]
  | case3 len hover excess oldest ring hwhole ih =>
    have hsum : len = oldest.length + ring.flatten.length := by
      rw [h, List.flatten_cons, List.length_append]
    obtain ⟨hring, hcount⟩ := ih (by omega)
    refine ⟨?_, by omega⟩
    rw [hring, List.flatten_cons, rtake_append_of_le _ (by omega)]
  | case4 ring len hwithin =>
    have hlen : len ≤ consoleSpoolSize := by omega
    exact ⟨(rtake_of_le (h ▸ hlen)).symm, (Nat.min_eq_left hlen).symm⟩

/-- What a buffer holds after the chunks whose bytes are `output`. -/
structure Spools (buffer : ConsoleBuffer) (output : List UInt8) : Prop where
  len : buffer.len = buffer.ring.flatten.length
  ring : buffer.ring.flatten = output.rtake consoleSpoolSize

theorem spools_default : Spools default [] := ⟨rfl, rfl⟩

theorem spools_push {buffer : ConsoleBuffer} {output : List UInt8} (h : Spools buffer output)
    (chunk : List UInt8) : Spools (buffer.push chunk) (output ++ chunk) := by
  have hcut : (if consoleSpoolSize < chunk.length then chunk.drop (chunk.length - consoleSpoolSize)
      else chunk) = chunk.rtake consoleSpoolSize := by
    split
    · rfl
    · exact (rtake_of_le (by omega)).symm
  have hflat : (buffer.ring ++ [chunk.rtake consoleSpoolSize]).flatten =
      output.rtake consoleSpoolSize ++ chunk.rtake consoleSpoolSize := by
    rw [List.flatten_append, h.ring, List.flatten_singleton]
  -- two parts of at most a spool each: the counter does not saturate
  have hbound : buffer.len + (chunk.rtake consoleSpoolSize).length ≤ usizeMax := by
    rw [h.len, h.ring, length_rtake, length_rtake]
    simp only [consoleSpoolSize, usizeMax]
    omega
  have hcount : min (buffer.len + (chunk.rtake consoleSpoolSize).length) usizeMax =
      (buffer.ring ++ [chunk.rtake consoleSpoolSize]).flatten.length := by
    rw [Nat.min_eq_left hbound, hflat, List.length_append, h.len, h.ring]
  obtain ⟨hring, hlen⟩ := trim_spec _ _ hcount
  simp only [push, hcut]
  refine ⟨?_, ?_⟩
  · rw [hlen, hring, hcount, length_rtake]
  · rw [hring, hflat, rtake_append_rtake]

theorem spools_foldl (chunks : List (List UInt8)) :
    ∀ {buffer : ConsoleBuffer} {output : List UInt8}, Spools buffer output →
      Spools (chunks.foldl push buffer) (output ++ chunks.flatten) := by
  induction chunks with
  | nil =>
    intro buffer output h
    simpa using h
  | cons chunk chunks ih =>
    intro buffer output h
    rw [List.foldl_cons, List.flatten_cons, ← List.append_assoc]
    exact ih (spools_push h chunk)

/-- After any chunks, the history is the end of the output, as much of it as the
spool holds, and the length that is kept beside the ring is the ring's. The loop's
own termination is checked with its definition. -/
theorem history_is_tail (chunks : List (List UInt8)) :
    (chunks.foldl push default).len = ((chunks.foldl push default).ring.map List.length).sum ∧
      (chunks.foldl push default).len ≤ consoleSpoolSize ∧
      (chunks.foldl push default).history =
        chunks.flatten.rtake (min chunks.flatten.length consoleSpoolSize) := by
  have h := spools_foldl chunks spools_default
  rw [List.nil_append] at h
  refine ⟨?_, ?_, ?_⟩
  · rw [h.len, List.length_flatten]
  · rw [h.len, h.ring, length_rtake]
    exact Nat.min_le_right _ _
  · rw [history_eq, h.ring, rtake_min]

end ConsoleBuffer

end Odorobo
