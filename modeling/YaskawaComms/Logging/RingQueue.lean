import YaskawaComms.Logging.RingBuffer

/-!
# The ring buffer as a bounded queue

Used one call after another, the ring buffer over `N` bytes is a first-in first-out queue of
`N - 1` bytes. The queue is the storage read cyclically from the tail.
-/

namespace YaskawaComms.Logging

open Program

section Execution

variable {α : Type} (site : RingFunction) (rb : RingBuffer)

@[simp] theorem exec_loadSize (f : Nat → RingProgram α) :
    (loadSize site >>= f).exec RingBuffer.handle rb = (f rb.size).exec RingBuffer.handle rb :=
  exec_call_some rfl

@[simp] theorem exec_loadHead (f : Nat → RingProgram α) :
    (loadHead site >>= f).exec RingBuffer.handle rb = (f rb.head).exec RingBuffer.handle rb :=
  exec_call_some rfl

@[simp] theorem exec_loadTail (f : Nat → RingProgram α) :
    (loadTail site >>= f).exec RingBuffer.handle rb = (f rb.tail).exec RingBuffer.handle rb :=
  exec_call_some rfl

@[simp] theorem exec_storeHead (value : Nat) (f : Unit → RingProgram α) :
    (storeHead site value >>= f).exec RingBuffer.handle rb =
      (f ()).exec RingBuffer.handle { rb with head := value } :=
  exec_call_some rfl

@[simp] theorem exec_storeTail (value : Nat) (f : Unit → RingProgram α) :
    (storeTail site value >>= f).exec RingBuffer.handle rb =
      (f ()).exec RingBuffer.handle { rb with tail := value } :=
  exec_call_some rfl

@[simp] theorem exec_copyIn (start : Nat) (block : List UInt8) (f : Unit → RingProgram α) :
    (copyIn site start block >>= f).exec RingBuffer.handle rb =
      (f ()).exec RingBuffer.handle { rb with buffer := overwrite rb.buffer start block } :=
  exec_call_some rfl

@[simp] theorem exec_copyOut (start count : Nat) (f : List UInt8 → RingProgram α) :
    (copyOut site start count >>= f).exec RingBuffer.handle rb =
      (f ((rb.buffer.drop start).take count)).exec RingBuffer.handle rb :=
  exec_call_some rfl

@[simp] theorem exec_lockGive (f : Unit → RingProgram α) :
    (lockGive site >>= f).exec RingBuffer.handle rb =
      (f ()).exec RingBuffer.handle { rb with lock := rb.lock.map (· + 1) } :=
  exec_call_some rfl

theorem exec_lockTake {value : Nat} (h : rb.lock = some (value + 1)) (f : Bool → RingProgram α) :
    (lockTake site >>= f).exec RingBuffer.handle rb =
      (f true).exec RingBuffer.handle { rb with lock := some value } := by
  rw [lockTake, call_bind]
  apply exec_call_some
  simp [RingBuffer.handle, RingBuffer.perform, h]

end Execution

/-- The stored bytes are `items`, oldest at the tail; the semaphore value plays no part. -/
structure RingLayout (N : Nat) (rb : RingBuffer) (items : List UInt8) : Prop where
  size : rb.size = N
  length : rb.buffer.length = N
  tail_lt : rb.tail < N
  fits : items.length ≤ N - 1
  head : rb.head = (rb.tail + items.length) % N
  stored : ∃ unused, rb.buffer.rotate rb.tail = items ++ unused

/-- The layout with a lock that a caller can take. -/
def RingIdle (N : Nat) (rb : RingBuffer) (items : List UInt8) : Prop :=
  RingLayout N rb items ∧ ∃ value, rb.lock = some (value + 1)

section Layout

variable {N : Nat} {rb : RingBuffer} {items : List UInt8}

theorem RingLayout.pos (h : RingLayout N rb items) : 0 < N := by
  have ht := h.tail_lt
  omega

theorem RingLayout.head_lt (h : RingLayout N rb items) : rb.head < N := by
  rw [h.head]
  exact Nat.mod_lt _ h.pos

theorem RingLayout.used (h : RingLayout N rb items) :
    (rb.tail ≤ rb.head ∧ rb.head = rb.tail + items.length) ∨
      (rb.head < rb.tail ∧ rb.head + N = rb.tail + items.length) := by
  have ht := h.tail_lt
  have hf := h.fits
  have hh := h.head
  rcases cyclic_index ht (by omega : items.length ≤ N) with ⟨_, hindex⟩ | ⟨_, hindex⟩
  · exact Or.inl ⟨by omega, by omega⟩
  · exact Or.inr ⟨by omega, by omega⟩

theorem RingLayout.unique {items' : List UInt8} (h : RingLayout N rb items)
    (h' : RingLayout N rb items') : items = items' := by
  obtain ⟨unused, hstored⟩ := h.stored
  obtain ⟨unused', hstored'⟩ := h'.stored
  have hlength : items.length = items'.length := by
    have hused := h.used
    have hused' := h'.used
    omega
  exact (List.append_inj (hstored.symm.trans hstored') hlength).1

theorem RingLayout.with_lock (h : RingLayout N rb items) (lock : Option Nat) :
    RingLayout N { rb with lock := lock } items :=
  ⟨h.size, h.length, h.tail_lt, h.fits, h.head, h.stored⟩

theorem exec_freeSpaceInternal {α : Type} (h : RingLayout N rb items) (hN : N ≤ 2 ^ 63)
    (f : Nat → RingProgram α) :
    (ringBufferFreeSpaceInternal >>= f).exec RingBuffer.handle rb =
      (f (N - 1 - items.length)).exec RingBuffer.handle rb := by
  apply exec_bind_some
  have hs := h.size
  have ht := h.tail_lt
  have hh := h.head_lt
  have hf := h.fits
  rcases h.used with ⟨hle, hu⟩ | ⟨hlt, hu⟩
  · have hdiff : subSize rb.head rb.tail = items.length := by
      rw [subSize_eq hle (by omega)]
      omega
    have hinner : subSize rb.size items.length = N - items.length := by
      rw [subSize_eq (by omega) (by omega), hs]
    have hspace : subSize (subSize rb.size (subSize rb.head rb.tail)) 1 = N - 1 - items.length := by
      rw [hdiff, hinner, subSize_eq (by omega) (by omega)]
      omega
    simp [ringBufferFreeSpaceInternal, hle, hspace]
  · have hspace : subSize (subSize rb.tail rb.head) 1 = N - 1 - items.length := by
      rw [subSize_eq (by omega : rb.head ≤ rb.tail) (by omega), subSize_eq (by omega) (by omega)]
      omega
    simp [ringBufferFreeSpaceInternal, Nat.not_le.mpr hlt, hspace]

theorem exec_usedSpaceInner {α : Type} (h : RingLayout N rb items) (hN : N ≤ 2 ^ 63)
    (f : Nat → RingProgram α) :
    (ringBufferUsedSpaceInner >>= f).exec RingBuffer.handle rb =
      (f items.length).exec RingBuffer.handle rb := by
  apply exec_bind_some
  have hs := h.size
  have ht := h.tail_lt
  have hh := h.head_lt
  rcases h.used with ⟨hle, hu⟩ | ⟨hlt, hu⟩
  · have hspace : subSize rb.head rb.tail = items.length := by
      rw [subSize_eq hle (by omega)]
      omega
    simp [ringBufferUsedSpaceInner, hle, hspace]
  · have hspace : addSize (subSize rb.size rb.tail) rb.head = items.length := by
      have hf := h.fits
      rw [subSize_eq (by omega) (by omega), addSize_eq (by omega)]
      omega
    simp [ringBufferUsedSpaceInner, Nat.not_le.mpr hlt, hspace]

theorem RingLayout.rotate_head (h : RingLayout N rb items) {unused : List UInt8}
    (hstored : rb.buffer.rotate rb.tail = items ++ unused) :
    rb.buffer.rotate rb.head = unused ++ items := by
  rw [h.head]
  conv_lhs => rw [← h.length]
  rw [List.rotate_mod, ← List.rotate_rotate, hstored, List.rotate_append_length_eq]

theorem rotate_tail_of_head {N tail used : Nat} {buffer items unused : List UInt8}
    (hlen : buffer.length = N) (hused : used ≤ N)
    (hhead : buffer.rotate ((tail + used) % N) = unused ++ items) (hunused : unused.length = N - used) :
    buffer.rotate tail = items ++ unused := by
  have hback : buffer.rotate (tail + used + unused.length) = items ++ unused := by
    have hmod : buffer.rotate (tail + used) = unused ++ items := by
      rw [← hhead, ← hlen, List.rotate_mod]
    rw [← List.rotate_rotate, hmod, List.rotate_append_length_eq]
  rw [hunused, show tail + used + (N - used) = tail + N by omega] at hback
  rw [← hback, ← List.rotate_mod, ← List.rotate_mod buffer (tail + N), hlen, Nat.add_mod_right]

theorem RingLayout.append (h : RingLayout N rb items) {block buffer : List UInt8}
    (hfit : items.length + block.length ≤ N - 1) (hlen : buffer.length = N)
    (hbuffer : buffer.rotate rb.head = block ++ (rb.buffer.rotate rb.head).drop block.length) :
    RingLayout N { rb with buffer := buffer, head := (rb.head + block.length) % N }
      (items ++ block) := by
  obtain ⟨unused, hunused⟩ := h.stored
  have hspace : items.length + unused.length = N := by
    rw [← List.length_append, ← hunused, List.length_rotate, h.length]
  refine ⟨h.size, hlen, h.tail_lt, by simpa using hfit, ?_, unused.drop block.length, ?_⟩
  · rw [List.length_append, h.head, Nat.mod_add_mod, Nat.add_assoc]
  · have hhead : buffer.rotate ((rb.tail + items.length) % N) =
        (block ++ unused.drop block.length) ++ items := by
      rw [← h.head, hbuffer, h.rotate_head hunused, List.drop_append_of_le_length (by omega),
        List.append_assoc]
    have htail := rotate_tail_of_head hlen (by omega) hhead (by
      rw [List.length_append, List.length_drop]
      omega)
    rw [htail, List.append_assoc]

theorem exec_writeInner {α : Type} (h : RingLayout N rb items) (hN : N ≤ 2 ^ 63)
    {data : List UInt8} {size : Nat} (hdata : size ≤ data.length)
    (hfit : items.length + size ≤ N - 1) (f : Nat → RingProgram α) :
    ∃ rb', (ringBufferWriteInner data size >>= f).exec RingBuffer.handle rb =
        (f size).exec RingBuffer.handle rb' ∧
      RingLayout N rb' (items ++ data.take size) ∧ rb'.lock = rb.lock := by
  have hs := h.size
  have hlen := h.length
  have hh := h.head_lt
  have hsum : addSize rb.head size = rb.head + size := addSize_eq (by omega)
  have hblock : (data.take size).length = size := by
    rw [List.length_take]
    omega
  have hlayout : ∀ buffer : List UInt8, buffer.length = N →
      buffer.rotate rb.head = data.take size ++ (rb.buffer.rotate rb.head).drop size →
      RingLayout N { rb with buffer := buffer, head := (rb.head + size) % N }
        (items ++ data.take size) := by
    intro buffer hbuffer hrotate
    have happend : RingLayout N { rb with
        buffer := buffer, head := (rb.head + (data.take size).length) % N }
        (items ++ data.take size) :=
      h.append (by rw [hblock]; exact hfit) hbuffer (by rw [hblock]; exact hrotate)
    rwa [hblock] at happend
  by_cases hwrap : N < rb.head + size
  · -- the block crosses the end of the storage
    have hfirst : subSize rb.size rb.head = N - rb.head := by
      rw [subSize_eq (by omega) (by omega), hs]
    have hrest : subSize size (N - rb.head) = size - (N - rb.head) :=
      subSize_eq (by omega) (by omega)
    have htake : data.take (N - rb.head) = (data.take size).take (N - rb.head) := by
      rw [List.take_take, Nat.min_eq_left (by omega)]
    have hdrop : (data.drop (N - rb.head)).take (size - (N - rb.head)) =
        (data.take size).drop (N - rb.head) := by
      rw [List.take_drop, show N - rb.head + (size - (N - rb.head)) = size by omega]
    have hsecond : N - rb.head < size := by omega
    let rb' : RingBuffer := { rb with
      buffer := overwrite (overwrite rb.buffer rb.head ((data.take size).take (N - rb.head))) 0
        ((data.take size).drop (N - rb.head))
      head := (rb.head + size) % N }
    have hexec : (ringBufferWriteInner data size).exec RingBuffer.handle rb = (some size, rb') := by
      simp only [rb']
      rw [← htake, ← hdrop]
      rw [hs] at hfirst
      simp [ringBufferWriteInner, hsum, hs, hwrap, hfirst, hrest, hsecond]
    refine ⟨rb', exec_bind_some hexec, hlayout _ ?_ ?_, rfl⟩
    · have hpieces := congrArg List.length (List.take_append_drop (N - rb.head) (data.take size))
      rw [List.length_append, hblock] at hpieces
      have hone : ((data.take size).take (N - rb.head)).length = N - rb.head := by
        rw [List.length_take]
        omega
      have houter := overwrite_length rb.buffer rb.head ((data.take size).take (N - rb.head))
        (by omega)
      rw [overwrite_length _ _ _ (by omega), houter, hlen]
    · have hrotate := rotate_overwrite_wrap rb.buffer rb.head (data.take size) (by omega)
        (by omega) (by omega)
      rwa [hlen, hblock] at hrotate
  · let rb' : RingBuffer := { rb with
      buffer := overwrite rb.buffer rb.head (data.take size)
      head := (rb.head + size) % N }
    have hexec : (ringBufferWriteInner data size).exec RingBuffer.handle rb = (some size, rb') := by
      simp [ringBufferWriteInner, hsum, hs, hwrap, rb']
    refine ⟨rb', exec_bind_some hexec, hlayout _ ?_ ?_, rfl⟩
    · rw [overwrite_length _ _ _ (by omega), hlen]
    · have hrotate := rotate_overwrite rb.buffer rb.head (data.take size) (by omega)
      rwa [hblock] at hrotate

theorem RingLayout.drop (h : RingLayout N rb items) {n : Nat} (hn : n ≤ items.length) :
    RingLayout N { rb with tail := (rb.tail + n) % N } (items.drop n) := by
  obtain ⟨unused, hunused⟩ := h.stored
  have hf := h.fits
  refine ⟨h.size, h.length, Nat.mod_lt _ h.pos, ?_, ?_, unused ++ items.take n, ?_⟩
  · rw [List.length_drop]
    omega
  · rw [h.head, Nat.mod_add_mod, List.length_drop]
    congr 1
    omega
  · have hrotate : rb.buffer.rotate ((rb.tail + n) % N) = (items ++ unused).rotate n := by
      rw [← hunused, List.rotate_rotate, ← h.length, List.rotate_mod]
    rw [hrotate, rotate_eq_drop_append _ n (by rw [List.length_append]; omega),
      List.drop_append_of_le_length hn, List.take_append_of_le_length hn, List.append_assoc]

theorem RingLayout.copied (h : RingLayout N rb items) {n : Nat} (hn : n ≤ items.length) :
    (rb.buffer.drop rb.tail).take n ++ rb.buffer.take (n - (N - rb.tail)) = items.take n := by
  obtain ⟨unused, hunused⟩ := h.stored
  have hlen := h.length
  have ht := h.tail_lt
  have hf := h.fits
  have hpieces := take_rotate rb.buffer rb.tail n (by omega) (by omega)
  rw [hlen] at hpieces
  rw [← hpieces, hunused, List.take_append_of_le_length hn]

/-- A read hands over the oldest items; it leaves the semaphore alone unless it asks for bytes
of an empty buffer. -/
theorem exec_ringBufferReadN (h : RingIdle N rb items) (hN : N ≤ 2 ^ 63) (size : Nat) :
    ∃ rb', (ringBufferReadN size).exec RingBuffer.handle rb =
        (some (min size items.length, items.take size), rb') ∧
      RingIdle N rb' (items.drop size) ∧ (rb'.lock = rb.lock ↔ size = 0 ∨ items ≠ []) := by
  obtain ⟨hlayout, value, hlock⟩ := h
  by_cases hzero : size = 0
  · exact ⟨rb, by simp [ringBufferReadN, hzero], by simpa [hzero] using ⟨hlayout, value, hlock⟩,
      by simp [hzero]⟩
  have hcount : (if size ≤ items.length then size else items.length) = min size items.length := by
    rw [Nat.min_def]
  by_cases hempty : items = []
  · -- an empty buffer gives the lock back although it was not taken
    subst hempty
    refine ⟨{ rb with lock := rb.lock.map (· + 1) }, ?_, ?_, ?_⟩
    · rw [ringBufferReadN, if_neg hzero, exec_usedSpaceInner hlayout hN]
      simp [hzero]
    · rw [List.drop_nil]
      exact ⟨hlayout.with_lock _, value + 1, by rw [hlock]; rfl⟩
    · simp [hlock, hzero]
  have hpos : 0 < items.length := List.length_pos_iff.mpr hempty
  obtain ⟨n, hcount'⟩ : ∃ n, min size items.length = n := ⟨_, rfl⟩
  have htaken : items.take n = items.take size := by rw [← hcount', ← List.take_eq_take_min]
  have hdropped : items.drop n = items.drop size := by rw [← hcount', ← List.drop_eq_drop_min]
  rw [hcount'] at hcount ⊢
  have hn : n ≤ items.length := by omega
  have hs := hlayout.size
  have ht := hlayout.tail_lt
  have hf := hlayout.fits
  have hsum : addSize rb.tail n = rb.tail + n := addSize_eq (by omega)
  have hcopied := hlayout.copied hn
  refine ⟨{ rb with tail := (rb.tail + n) % N }, ?_, ?_, by simp [hempty]⟩
  · rw [ringBufferReadN, if_neg hzero, exec_usedSpaceInner hlayout hN]
    simp only [hcount]
    rw [if_neg (by omega)]
    by_cases hwrap : N < rb.tail + n
    · have hfirst : subSize N rb.tail = N - rb.tail := subSize_eq (by omega) (by omega)
      have hrest : subSize n (N - rb.tail) = n - (N - rb.tail) := subSize_eq (by omega) (by omega)
      have hsecond : N - rb.tail < n := by omega
      have hall : (rb.buffer.drop rb.tail).take (N - rb.tail) = (rb.buffer.drop rb.tail).take n := by
        have hlen := hlayout.length
        rw [List.take_of_length_le (by rw [List.length_drop]; omega),
          List.take_of_length_le (by rw [List.length_drop]; omega)]
      rw [htaken] at hcopied
      simpa [hsum, hs, hwrap, hfirst, hrest, hsecond, hall] using hcopied
    · have hone : n - (N - rb.tail) = 0 := by omega
      rw [htaken, hone, List.take_zero, List.append_nil] at hcopied
      simpa [hsum, hs, hwrap] using hcopied
  · rw [← hdropped]
    exact ⟨hlayout.drop hn, value, hlock⟩

theorem exec_writeLocked {value : Nat} (hlayout : RingLayout N rb items) (hN : N ≤ 2 ^ 63)
    (hlock : rb.lock = some value) {data : List UInt8} {n : Nat} (hdata : n ≤ data.length)
    (hfit : n ≤ N - 1 - items.length) (site : RingFunction) :
    ∃ rb', (if n = 0 then (do lockGive site; return 0)
        else (do let written ← ringBufferWriteInner data n; lockGive site; return written) :
          RingProgram Nat).exec RingBuffer.handle rb = (some n, rb') ∧
      RingIdle N rb' (items ++ data.take n) := by
  by_cases hnone : n = 0
  · subst hnone
    refine ⟨{ rb with lock := some (value + 1) }, ?_, ?_⟩
    · simp [hlock]
    · rw [List.take_zero, List.append_nil]
      exact ⟨hlayout.with_lock _, value, rfl⟩
  · have hf := hlayout.fits
    obtain ⟨rb', hexec, hlayout', hlock'⟩ := exec_writeInner hlayout hN hdata (by omega)
      (fun written => do lockGive site; return written)
    refine ⟨{ rb' with lock := some (value + 1) }, ?_, hlayout'.with_lock _, value, rfl⟩
    rw [if_neg hnone, hexec]
    simp [hlock', hlock]

theorem exec_ringBufferWriteN (h : RingIdle N rb items) (hN : N ≤ 2 ^ 63) {data : List UInt8}
    {size : Nat} (hdata : size ≤ data.length) :
    ∃ rb', (ringBufferWriteN data size).exec RingBuffer.handle rb =
        (some (min size (N - 1 - items.length)), rb') ∧
      RingIdle N rb' (items ++ data.take (min size (N - 1 - items.length))) := by
  obtain ⟨hlayout, value, hlock⟩ := h
  by_cases hzero : size = 0
  · subst hzero
    exact ⟨rb, by simp [ringBufferWriteN], by simpa using ⟨hlayout, value, hlock⟩⟩
  have hheld : RingLayout N { rb with lock := some value } items := hlayout.with_lock _
  have hcount : (if size ≤ N - 1 - items.length then size else N - 1 - items.length) =
      min size (N - 1 - items.length) := by
    rw [Nat.min_def]
  rw [ringBufferWriteN, if_neg hzero, exec_lockTake _ _ hlock]
  simp only [Bool.not_true, Bool.false_eq_true, if_false]
  rw [exec_freeSpaceInternal hheld hN]
  simp only [hcount]
  exact exec_writeLocked hheld hN rfl ((Nat.min_le_left _ _).trans hdata) (Nat.min_le_right _ _)
    .writeN

theorem exec_ringBufferWriteExactN (h : RingIdle N rb items) (hN : N ≤ 2 ^ 63)
    (data : List UInt8) :
    ∃ rb', (ringBufferWriteExactN data data.length).exec RingBuffer.handle rb =
        (some (if data.length ≤ N - 1 - items.length then data.length else 0), rb') ∧
      RingIdle N rb' (items ++ if data.length ≤ N - 1 - items.length then data else []) := by
  obtain ⟨hlayout, value, hlock⟩ := h
  by_cases hzero : data.length = 0
  · obtain rfl := List.length_eq_zero_iff.mp hzero
    exact ⟨rb, by simp [ringBufferWriteExactN], by simpa using ⟨hlayout, value, hlock⟩⟩
  have hheld : RingLayout N { rb with lock := some value } items := hlayout.with_lock _
  have htaken : data.take (if data.length ≤ N - 1 - items.length then data.length else 0) =
      if data.length ≤ N - 1 - items.length then data else [] := by
    split
    · exact List.take_length
    · exact List.take_zero
  rw [ringBufferWriteExactN, if_neg hzero, exec_lockTake _ _ hlock]
  simp only [Bool.not_true, Bool.false_eq_true, if_false]
  rw [exec_freeSpaceInternal hheld hN, ← htaken]
  exact exec_writeLocked hheld hN rfl (by split <;> omega) (by split <;> omega) .writeExactN

theorem exec_ringBufferUsedSpace (h : RingIdle N rb items) (hN : N ≤ 2 ^ 63) :
    ringBufferUsedSpace.exec RingBuffer.handle rb = (some items.length, rb) := by
  obtain ⟨hlayout, value, hlock⟩ := h
  rw [ringBufferUsedSpace, exec_lockTake _ _ hlock]
  simp only [Bool.not_true, Bool.false_eq_true, if_false]
  rw [exec_usedSpaceInner (hlayout.with_lock _) hN]
  simp [← hlock]

theorem exec_ringBufferFreeSpace (h : RingIdle N rb items) (hN : N ≤ 2 ^ 63) :
    ringBufferFreeSpace.exec RingBuffer.handle rb = (some (N - 1 - items.length), rb) := by
  obtain ⟨hlayout, value, hlock⟩ := h
  rw [ringBufferFreeSpace, exec_lockTake _ _ hlock]
  simp only [Bool.not_true, Bool.false_eq_true, if_false]
  rw [exec_freeSpaceInternal (hlayout.with_lock _) hN]
  simp [← hlock]

end Layout

/-- What a call returns and does on a queue of bytes. -/
def RingOp.onFifo {capacity : Nat} :
    RingOp → BoundedFifo UInt8 capacity → (Nat × List UInt8) × BoundedFifo UInt8 capacity
  | .writeN data, q => ((min data.length q.free, []), q.push data)
  | .writeExactN data, q =>
      if data.length ≤ q.free then ((data.length, []), q.push data) else ((0, []), q)
  | .readN size, q => ((min size q.used, q.items.take size), q.pop size)
  | .usedSpace, q => ((q.used, []), q)
  | .freeSpace, q => ((q.free, []), q)

def fifoCalls {capacity : Nat} :
    List RingOp → BoundedFifo UInt8 capacity → List (Nat × List UInt8) × BoundedFifo UInt8 capacity
  | [], q => ([], q)
  | op :: ops, q =>
      ((op.onFifo q).1 :: (fifoCalls ops (op.onFifo q).2).1, (fifoCalls ops (op.onFifo q).2).2)

/-- Calls on the ring buffer, one after another. -/
def ringCalls : List RingOp → RingProgram (List (Nat × List UInt8))
  | [] => return []
  | op :: ops => do
      let out ← op.code
      let outs ← ringCalls ops
      return out :: outs

/-- One call on an idle ring buffer does what the queue does. -/
theorem RingOp.exec_code {N : Nat} {rb : RingBuffer} {q : BoundedFifo UInt8 (N - 1)}
    (h : RingIdle N rb q.items) (hN : N ≤ 2 ^ 63) (op : RingOp) :
    ∃ rb', op.code.exec RingBuffer.handle rb = (some (op.onFifo q).1, rb') ∧
      RingIdle N rb' (op.onFifo q).2.items := by
  cases op with
  | writeN data =>
      obtain ⟨rb', hexec, hidle⟩ := exec_ringBufferWriteN h hN (le_refl data.length)
      rw [Nat.min_comm, ← List.take_eq_take_min] at hidle
      exact ⟨rb', exec_bind_some hexec, hidle⟩
  | writeExactN data =>
      obtain ⟨rb', hexec, hidle⟩ := exec_ringBufferWriteExactN h hN data
      have hcode : (RingOp.writeExactN data).code.exec RingBuffer.handle rb =
          (some (if data.length ≤ q.free then data.length else 0, []), rb') := exec_bind_some hexec
      change RingIdle N rb' (q.items ++ if data.length ≤ q.free then data else []) at hidle
      refine ⟨rb', ?_⟩
      by_cases hfit : data.length ≤ q.free
      · have hop : (RingOp.writeExactN data).onFifo q = ((data.length, []), q.push data) :=
          if_pos hfit
        rw [if_pos hfit] at hcode hidle
        rw [hop]
        refine ⟨hcode, ?_⟩
        change RingIdle N rb' (q.items ++ data.take q.free)
        rwa [List.take_of_length_le hfit]
      · have hop : (RingOp.writeExactN data).onFifo q = ((0, []), q) := if_neg hfit
        rw [if_neg hfit] at hcode hidle
        rw [hop]
        exact ⟨hcode, by simpa using hidle⟩
  | readN size =>
      obtain ⟨rb', hexec, hidle, _⟩ := exec_ringBufferReadN h hN size
      exact ⟨rb', hexec, hidle⟩
  | usedSpace => exact ⟨rb, exec_bind_some (exec_ringBufferUsedSpace h hN), h⟩
  | freeSpace => exact ⟨rb, exec_bind_some (exec_ringBufferFreeSpace h hN), h⟩

theorem exec_ringCalls {N : Nat} {rb : RingBuffer} {q : BoundedFifo UInt8 (N - 1)}
    (h : RingIdle N rb q.items) (hN : N ≤ 2 ^ 63) (ops : List RingOp) :
    ∃ rb', (ringCalls ops).exec RingBuffer.handle rb = (some (fifoCalls ops q).1, rb') ∧
      RingIdle N rb' (fifoCalls ops q).2.items := by
  induction ops generalizing rb q with
  | nil => exact ⟨rb, rfl, h⟩
  | cons op ops ih =>
      obtain ⟨rb₁, hop, hidle₁⟩ := RingOp.exec_code h hN op
      obtain ⟨rb₂, hops, hidle₂⟩ := ih hidle₁
      refine ⟨rb₂, ?_, hidle₂⟩
      rw [ringCalls, exec_bind_some hop, exec_bind_some hops]
      rfl

theorem ringBufferInitialize_idle {N : Nat} (hN : 1 ≤ N) (rb : RingBuffer) :
    RingIdle N (ringBufferInitialize rb N true).2 (BoundedFifo.empty : BoundedFifo UInt8 (N - 1)).items := by
  rw [ringBufferInitialize, if_neg (by omega)]
  refine ⟨⟨rfl, List.length_replicate, by show 0 < N; omega, Nat.zero_le _, ?_, ?_⟩, 0, rfl⟩
  · show 0 = (0 + 0) % N
    rw [Nat.zero_mod]
  · exact ⟨_, rfl⟩

/-- After initialisation, any sequence of calls returns what a queue of `N - 1` bytes returns,
leaves its content in the buffer, and keeps used and free space complementary. -/
theorem ringCalls_refine_fifo (N : Nat) (hpos : 1 ≤ N) (hN : N ≤ 2 ^ 63) (rb : RingBuffer)
    (ops : List RingOp) :
    let q := fifoCalls ops (BoundedFifo.empty : BoundedFifo UInt8 (N - 1))
    ∃ rb', (ringCalls ops).exec RingBuffer.handle (ringBufferInitialize rb N true).2 =
        (some q.1, rb') ∧
      RingLayout N rb' q.2.items ∧ q.2.used + q.2.free = N - 1 := by
  obtain ⟨rb', hexec, hidle⟩ := exec_ringCalls (ringBufferInitialize_idle hpos rb) hN ops
  exact ⟨rb', hexec, hidle.1, BoundedFifo.used_add_free _⟩

/-- Four bytes hold three: the second write is cut, and the reads cross the end. -/
theorem ringCalls_refine_fifo_four :
    (fifoCalls [.writeN [1, 2], .readN 1, .writeN [3, 4, 5], .readN 9, .usedSpace]
        (BoundedFifo.empty : BoundedFifo UInt8 (4 - 1))).1 =
      [(2, []), (1, [1]), (2, []), (3, [2, 3, 4]), (0, [])] ∧
    ∃ rb', (ringCalls [.writeN [1, 2], .readN 1, .writeN [3, 4, 5], .readN 9, .usedSpace]).exec
        RingBuffer.handle (ringBufferInitialize ⟨[], 0, 0, 0, none⟩ 4 true).2 =
      (some [(2, []), (1, [1]), (2, []), (3, [2, 3, 4]), (0, [])], rb') := by
  obtain ⟨rb', hexec, _⟩ := ringCalls_refine_fifo 4 (by decide) (by decide) ⟨[], 0, 0, 0, none⟩
    [.writeN [1, 2], .readN 1, .writeN [3, 4, 5], .readN 9, .usedSpace]
  exact ⟨by decide, rb', hexec⟩

end YaskawaComms.Logging
