import YaskawaComms.Logging.RingLock
import YaskawaComms.Logging.RingProgress

/-!
# A reader against a writer

One thread reads the ring buffer while another one writes it, each repeating its calls, and every
load, store, copy and lock call is a step of its own. A run keeps a history of the bytes that
went into the buffer and came out of it. What comes out is right as long as neither index wraps
between the comparison of a space function and the load that follows it.
-/

namespace YaskawaComms.Logging

open Program

inductive Party where
  | reader | writer
  deriving DecidableEq

/-- The reader only reads, the writer only writes. -/
def Party.plays : Party → RingOp → Bool
  | .reader, .readN _ => true
  | .writer, .writeN _ | .writer, .writeExactN _ => true
  | _, _ => false

def RingOp.data : RingOp → List UInt8
  | .writeN data | .writeExactN data => data
  | .readN _ | .usedSpace | .freeSpace => []

/-- What the runs of the two parties leave on record. -/
structure Exchange where
  reader : Progress := {}
  writer : Progress := {}
  /-- The data of the writer's last call. -/
  offered : List UInt8 := []
  /-- The bytes that a store of the head has added, in order. -/
  published : List UInt8 := []
  /-- The bytes that the reader's calls have returned, in order. -/
  obtained : List UInt8 := []

/-- The bytes that a call returns, if it has come to its end. -/
def returned : RingProgram (Nat × List UInt8) → List UInt8
  | .ret out => out.2
  | .call _ _ => []

/-- The bytes that an access adds to the buffer's content. -/
def Progress.published (p : Progress) (c : RingCall) : List UInt8 :=
  match c.access with
  | .storeHead _ => p.moved
  | _ => []

def Exchange.made (h : Exchange) (i : Party) (c : RingCall) (r : c.access.Result)
    (rest : RingProgram (Nat × List UInt8)) : Exchange :=
  match i with
  | .reader => { h with reader := h.reader.after c r, obtained := h.obtained ++ returned rest }
  | .writer =>
      { h with writer := h.writer.after c r, published := h.published ++ h.writer.published c }

def Exchange.note (label : PoolLabel Party Bool RingOp) (s : RingPool Party) (h : Exchange) :
    Exchange :=
  match label with
  | .begin .reader _ => { h with reader := {} }
  | .begin .writer op => { h with writer := {}, offered := op.data }
  | .call i interrupted =>
      match s.code i with
      | .ret _ => h
      | .call c next =>
          match s.shared.perform interrupted c with
          | none => h
          | some (r, _) => h.made i c r (next r)

/-- A step of either party, noted in the history. -/
def exchangeStep (label : PoolLabel Party Bool RingOp) (s : RingPool Party × Exchange) :
    Option (RingPool Party × Exchange) :=
  match label with
  | .call i interrupted => noting ringStep Exchange.note (.call i interrupted) s
  | .begin i op => if i.plays op then noting ringStep Exchange.note (.begin i op) s else none

/-- Both parties idle on a ring buffer. -/
def exchange (rb : RingBuffer) : RingPool Party × Exchange :=
  (⟨rb, fun _ => .ret (0, []), fun _ => false⟩, {})

/-- The indices lie in the storage. -/
structure RingBuffer.Valid (rb : RingBuffer) : Prop where
  length : rb.buffer.length = rb.size
  head_lt : rb.head < rb.size
  tail_lt : rb.tail < rb.size

/-- The bytes from the tail up to the head. -/
def RingBuffer.unread (rb : RingBuffer) : List UInt8 :=
  (rb.buffer.rotate rb.tail).take ((rb.head + rb.size - rb.tail) % rb.size)

/-- When the reader loads the head again after it has found the head not below the tail, the head
is still not below the tail; when the writer loads the tail again after it has found the tail
above the head, the tail is still above the head. -/
def Steady (s : RingPool Party × Exchange) : PoolLabel Party Bool RingOp → Prop
  | .call .reader _ => ∀ head tail, s.2.reader.loads = [head, tail] → tail ≤ head →
      s.1.shared.tail ≤ s.1.shared.head
  | .call .writer _ => ∀ head tail, s.2.writer.loads = [head, tail] → head < tail →
      s.1.shared.head < s.1.shared.tail
  | .begin _ _ => True

/-- What is promised of a reader and a writer on a buffer that was `rb` at first. -/
structure Faithful (rb : RingBuffer) (s : RingPool Party × Exchange) : Prop where
  used : UsedSpaceFits s.2.reader.loads
  free : FreeSpaceFits s.2.writer.loads
  /-- A copy into the buffer stays in the storage and away from the unread bytes. -/
  spared : ∀ site start block, (s.1.code .writer).nextCall = some ⟨site, .copyIn start block⟩ →
    start + block.length ≤ s.1.shared.size ∧ ∀ k < s.1.shared.unread.length,
      (s.1.shared.tail + k) % s.1.shared.size ∉ Set.Ico start (start + block.length)
  /-- Reads have returned the first bytes, in order, and the others are in the buffer. -/
  order : rb.unread ++ s.2.published = s.2.obtained ++ s.1.shared.unread
  counted : ∀ out, s.1.code .reader = .ret out → out.1 = out.2.length
  accepted : ∀ out, s.1.code .writer = .ret out →
    s.2.writer.done = s.2.offered.take out.1 ∧ s.2.writer.done.length = out.1

/-- The bytes from the tail on are `items`, whether or not the head is behind them already. -/
def RingContent (N : Nat) (rb : RingBuffer) (items : List UInt8) : Prop :=
  RingLayout N { rb with head := (rb.tail + items.length) % N } items

section Content

variable {N : Nat} {rb : RingBuffer} {items more block : List UInt8} {start count : Nat}

theorem RingLayout.unread_eq (h : RingLayout N rb items) : rb.unread = items := by
  have hf := h.fits
  have hdistance : (rb.head + rb.size - rb.tail) % rb.size = items.length := by
    rw [h.size]
    exact distance_of_index h.tail_lt (by have hpos := h.pos; omega) h.head
  obtain ⟨unused, hstored⟩ := h.stored
  rw [RingBuffer.unread, hdistance, hstored, List.take_left]

theorem RingBuffer.Valid.layout (h : rb.Valid) : RingLayout rb.size rb rb.unread := by
  have ht := h.tail_lt
  have hh := h.head_lt
  have hlength : rb.unread.length = (rb.head + rb.size - rb.tail) % rb.size := by
    rw [RingBuffer.unread, List.length_take, List.length_rotate, h.length]
    exact Nat.min_eq_left (Nat.mod_lt _ (by omega)).le
  have hdistance : (rb.tail + rb.unread.length) % rb.size = rb.head := by
    rw [hlength, Nat.add_mod_mod, show rb.tail + (rb.head + rb.size - rb.tail) = rb.head + rb.size
      by omega, Nat.add_mod_right, Nat.mod_eq_of_lt hh]
  refine ⟨rfl, h.length, ht, ?_, hdistance.symm, ?_⟩
  · have hlt : rb.unread.length < rb.size := hlength ▸ Nat.mod_lt _ (by omega)
    omega
  · exact ⟨_, (List.take_append_drop _ _).symm⟩

theorem RingContent.layout (h : RingContent N rb items)
    (hhead : rb.head = (rb.tail + items.length) % N) : RingLayout N rb items :=
  ⟨h.size, h.length, h.tail_lt, h.fits, hhead, h.stored⟩

theorem RingLayout.content (h : RingLayout N rb items) : RingContent N rb items :=
  ⟨h.size, h.length, h.tail_lt, h.fits, rfl, h.stored⟩

theorem RingContent.front (h : RingContent N rb (items ++ more)) : RingContent N rb items := by
  have hf := h.fits
  obtain ⟨unused, hstored⟩ := h.stored
  rw [List.length_append] at hf
  exact ⟨h.size, h.length, h.tail_lt, by omega, rfl, more ++ unused, by
    rw [← List.append_assoc]
    exact hstored⟩

theorem RingContent.copyIn (h : RingContent N rb items)
    (hstart : start = (rb.tail + items.length) % N) (hend : start + block.length ≤ N)
    (hfit : items.length + block.length ≤ N - 1) :
    RingContent N { rb with buffer := overwrite rb.buffer start block } (items ++ block) := by
  have hlen : rb.buffer.length = N := h.length
  have hlength : (overwrite rb.buffer start block).length = N := by
    rw [overwrite_length _ _ _ (by omega), hlen]
  have hrotate : (overwrite rb.buffer start block).rotate ((rb.tail + items.length) % N) =
      block ++ (rb.buffer.rotate ((rb.tail + items.length) % N)).drop block.length := by
    rw [← hstart]
    exact rotate_overwrite rb.buffer start block (by omega)
  exact (h.append hfit hlength hrotate).content

theorem RingContent.release (h : RingContent N rb items) (hcount : count ≤ items.length) :
    RingContent N { rb with tail := (rb.tail + count) % N } (items.drop count) :=
  (h.drop hcount).content

theorem RingContent.copyOut (h : RingContent N rb items) {skipped : Nat}
    (hstart : start = (rb.tail + skipped) % N) (hend : start + count ≤ N)
    (hcount : skipped + count ≤ items.length) :
    (rb.buffer.drop start).take count = (items.drop skipped).take count := by
  have hlen : rb.buffer.length = N := h.length
  obtain ⟨unused, hstored⟩ := h.stored
  have hrotate : rb.buffer.rotate start = (items ++ unused).rotate skipped := by
    rw [hstart, ← hlen, List.rotate_mod, ← List.rotate_rotate]
    exact congrArg (List.rotate · skipped) hstored
  have hpieces := take_rotate rb.buffer start count (by omega) (by omega)
  rw [hlen, Nat.sub_eq_zero_of_le (by omega : count ≤ N - start), List.take_zero,
    List.append_nil] at hpieces
  rw [← hpieces, hrotate, rotate_eq_drop_append _ _ (by rw [List.length_append]; omega),
    List.drop_append_of_le_length (by omega), List.append_assoc,
    List.take_append_of_le_length (by rw [List.length_drop]; omega)]

end Content

/-- Reader and writer are at work on a buffer whose content, counted up to the head, is `unread`;
what the writer has copied lies behind it. -/
structure Linked (N : Nat) (written : List UInt8) (s : RingPool Party × Exchange)
    (unread : List UInt8) : Prop where
  content : RingContent N s.1.shared (unread ++ s.2.writer.moved)
  head : s.1.shared.head = (s.1.shared.tail + unread.length) % N
  reads : ∃ known ≤ unread.length, (s.1.code .reader).Obeys reading HandsOver
    ⟨N, s.1.shared.tail, known, s.2.reader⟩
  writes : ∃ known ≤ N - 1 - unread.length, (s.1.code .writer).Obeys writing
    (Accepts s.2.offered) ⟨N, s.1.shared.head, known, s.2.writer⟩
  fetched : s.2.reader.moved <+: unread
  order : written ++ s.2.published = s.2.obtained ++ unread

section Step

variable {N : Nat} {written unread : List UInt8} {s : RingPool Party × Exchange}

theorem Linked.layout (h : Linked N written s unread) : RingLayout N s.1.shared unread :=
  h.content.front.layout h.head

theorem returned_of_obeys {p : RingProgram (Nat × List UInt8)} {m : Side}
    (h : p.Obeys reading HandsOver m) : returned p = m.progress.done := by
  cases p with
  | ret out => exact h.2.1
  | call c next => exact h.1.2.1.symm

variable {rb : RingBuffer} {held : Party → Bool} {c : RingCall} {r : c.access.Result}
  {rest : RingProgram (Nat × List UInt8)} {known : Nat}

/-- The state after a step of one party. -/
def stepped (s : RingPool Party × Exchange) (i : Party) (rb : RingBuffer) (held : Party → Bool)
    (c : RingCall) (r : c.access.Result) (rest : RingProgram (Nat × List UInt8)) :
    RingPool Party × Exchange :=
  (⟨rb, Function.update s.1.code i rest, held⟩, s.2.made i c r rest)

theorem Linked.reader_moves (h : Linked N written s unread)
    (hcontent : RingContent N rb (unread ++ s.2.writer.moved)) (hhead : rb.head = s.1.shared.head)
    (htail : rb.tail = s.1.shared.tail) (hknown : known ≤ unread.length)
    (hobeys : rest.Obeys reading HandsOver ⟨N, s.1.shared.tail, known, s.2.reader.after c r⟩)
    (hdone : (s.2.reader.after c r).done = []) (hfetched : (s.2.reader.after c r).moved <+: unread) :
    Linked N written (stepped s .reader rb held c r rest) unread := by
  refine ⟨hcontent, ?_, ⟨known, hknown, ?_⟩, ?_, hfetched, ?_⟩
  · show rb.head = (rb.tail + unread.length) % N
    rw [hhead, htail, h.head]
  · show (Function.update s.1.code .reader rest .reader).Obeys reading HandsOver
      ⟨N, rb.tail, known, s.2.reader.after c r⟩
    rw [Function.update_self, htail]
    exact hobeys
  · obtain ⟨known', hknown', hwrites⟩ := h.writes
    refine ⟨known', hknown', ?_⟩
    show (Function.update s.1.code .reader rest .writer).Obeys writing (Accepts s.2.offered)
      ⟨N, rb.head, known', s.2.writer⟩
    rw [Function.update_of_ne (by decide), hhead]
    exact hwrites
  · show written ++ s.2.published = s.2.obtained ++ returned rest ++ unread
    rw [returned_of_obeys hobeys, hdone, List.append_nil, h.order]

/-- The store of the tail gives up the bytes that the read has copied. -/
theorem Linked.reader_stores (h : Linked N written s unread) {site : RingFunction} {value : Nat}
    (hvalue : value = (s.1.shared.tail + s.2.reader.moved.length) % N)
    (hobeys : rest.Obeys reading HandsOver ⟨N, value, 0, ⟨[], [], s.2.reader.moved⟩⟩) :
    Linked N written
      (stepped s .reader { s.1.shared with tail := value } held ⟨site, .storeTail value⟩ () rest)
      (unread.drop s.2.reader.moved.length) := by
  have hle := h.fetched.length_le
  have hwithin : s.2.reader.moved.length ≤ (unread ++ s.2.writer.moved).length := by
    rw [List.length_append]
    omega
  have hcontent := h.content.release hwithin
  rw [List.drop_append_of_le_length hle, ← hvalue] at hcontent
  have hbytes : s.2.reader.moved = unread.take s.2.reader.moved.length :=
    List.prefix_iff_eq_take.mp h.fetched
  refine ⟨hcontent, ?_, ⟨0, Nat.zero_le _, ?_⟩, ?_, List.nil_prefix, ?_⟩
  · show s.1.shared.head = (value + (unread.drop s.2.reader.moved.length).length) % N
    rw [h.head, hvalue, Nat.mod_add_mod, List.length_drop]
    congr 1
    omega
  · show (Function.update s.1.code .reader rest .reader).Obeys reading HandsOver
      ⟨N, value, 0, ⟨[], [], s.2.reader.moved⟩⟩
    rw [Function.update_self]
    exact hobeys
  · obtain ⟨known', hknown', hwrites⟩ := h.writes
    refine ⟨known', by rw [List.length_drop]; omega, ?_⟩
    show (Function.update s.1.code .reader rest .writer).Obeys writing (Accepts s.2.offered)
      ⟨N, s.1.shared.head, known', s.2.writer⟩
    rw [Function.update_of_ne (by decide)]
    exact hwrites
  · show written ++ s.2.published =
      s.2.obtained ++ returned rest ++ unread.drop s.2.reader.moved.length
    have hreturned : returned rest = s.2.reader.moved := returned_of_obeys hobeys
    rw [hreturned, List.append_assoc]
    conv_rhs => rw [hbytes, List.length_take, Nat.min_eq_left hle, List.take_append_drop]
    exact h.order

theorem Linked.writer_moves (h : Linked N written s unread)
    (hcontent : RingContent N rb (unread ++ (s.2.writer.after c r).moved))
    (hhead : rb.head = s.1.shared.head) (htail : rb.tail = s.1.shared.tail)
    (hknown : known ≤ N - 1 - unread.length)
    (hobeys : rest.Obeys writing (Accepts s.2.offered)
      ⟨N, s.1.shared.head, known, s.2.writer.after c r⟩)
    (hpublished : s.2.writer.published c = []) :
    Linked N written (stepped s .writer rb held c r rest) unread := by
  refine ⟨hcontent, ?_, ?_, ⟨known, hknown, ?_⟩, h.fetched, ?_⟩
  · show rb.head = (rb.tail + unread.length) % N
    rw [hhead, htail, h.head]
  · obtain ⟨known', hknown', hreads⟩ := h.reads
    refine ⟨known', hknown', ?_⟩
    show (Function.update s.1.code .writer rest .reader).Obeys reading HandsOver
      ⟨N, rb.tail, known', s.2.reader⟩
    rw [Function.update_of_ne (by decide), htail]
    exact hreads
  · show (Function.update s.1.code .writer rest .writer).Obeys writing (Accepts s.2.offered)
      ⟨N, rb.head, known, s.2.writer.after c r⟩
    rw [Function.update_self, hhead]
    exact hobeys
  · show written ++ (s.2.published ++ s.2.writer.published c) = s.2.obtained ++ unread
    rw [hpublished, List.append_nil]
    exact h.order

theorem Linked.writer_stores (h : Linked N written s unread) {site : RingFunction} {value : Nat}
    (hvalue : value = (s.1.shared.head + s.2.writer.moved.length) % N)
    (hobeys : rest.Obeys writing (Accepts s.2.offered) ⟨N, value, 0, ⟨[], [], s.2.writer.moved⟩⟩) :
    Linked N written
      (stepped s .writer { s.1.shared with head := value } held ⟨site, .storeHead value⟩ () rest)
      (unread ++ s.2.writer.moved) := by
  refine ⟨?_, ?_, ?_, ⟨0, Nat.zero_le _, ?_⟩, h.fetched.trans (List.prefix_append _ _), ?_⟩
  · show RingContent N { s.1.shared with head := value } (unread ++ s.2.writer.moved ++ [])
    rw [List.append_nil]
    exact h.content
  · show value = (s.1.shared.tail + (unread ++ s.2.writer.moved).length) % N
    rw [hvalue, h.head, Nat.mod_add_mod, List.length_append, Nat.add_assoc]
  · obtain ⟨known', hknown', hreads⟩ := h.reads
    refine ⟨known', by rw [List.length_append]; omega, ?_⟩
    show (Function.update s.1.code .writer rest .reader).Obeys reading HandsOver
      ⟨N, s.1.shared.tail, known', s.2.reader⟩
    rw [Function.update_of_ne (by decide)]
    exact hreads
  · show (Function.update s.1.code .writer rest .writer).Obeys writing (Accepts s.2.offered)
      ⟨N, value, 0, ⟨[], [], s.2.writer.moved⟩⟩
    rw [Function.update_self]
    exact hobeys
  · show written ++ (s.2.published ++ s.2.writer.moved) = s.2.obtained ++ (unread ++ s.2.writer.moved)
    rw [← List.append_assoc, h.order, List.append_assoc]

@[simp] theorem Progress.loaded_moved (p : Progress) (site : RingFunction) (value : Nat) :
    (p.loaded site value).moved = p.moved := by
  rw [Progress.loaded]
  split <;> rfl

@[simp] theorem Progress.loaded_done (p : Progress) (site : RingFunction) (value : Nat) :
    (p.loaded site value).done = p.done := by
  rw [Progress.loaded]
  split <;> rfl

theorem Linked.reader_step (h : Linked N written s unread) {interrupted : Bool}
    {next : c.access.Result → RingProgram (Nat × List UInt8)}
    (hsteady : Steady s (.call .reader interrupted)) (hcode : s.1.code .reader = .call c next)
    (hperform : s.1.shared.perform interrupted c = some (r, rb)) :
    ∃ unread', Linked N written (stepped s .reader rb held c r (next r)) unread' := by
  obtain ⟨known, hknown, hreads⟩ := h.reads
  rw [hcode] at hreads
  obtain ⟨⟨_, hdone, hgood⟩, hnext⟩ := hreads
  have hlayout := h.layout
  obtain ⟨site, access⟩ := c
  cases access with
  | lockTake => exact hgood.elim
  | storeHead value => exact hgood.elim
  | copyIn start block => exact hgood.elim
  | lockGive =>
      obtain ⟨-, rfl⟩ := Prod.mk.inj (Option.some.inj hperform)
      exact ⟨unread, h.reader_moves (h.content.with_lock _) rfl rfl hknown (hnext r trivial) hdone
        h.fetched⟩
  | loadSize =>
      obtain ⟨rfl, rfl⟩ := Prod.mk.inj (Option.some.inj hperform)
      exact ⟨unread, h.reader_moves h.content rfl rfl hknown (hnext _ hlayout.size)
        (by simpa [Progress.after] using hdone) (by simpa [Progress.after] using h.fetched)⟩
  | loadTail =>
      obtain ⟨rfl, rfl⟩ := Prod.mk.inj (Option.some.inj hperform)
      exact ⟨unread, h.reader_moves h.content rfl rfl hknown (hnext _ rfl)
        (by simpa [Progress.after] using hdone) (by simpa [Progress.after] using h.fetched)⟩
  | loadHead =>
      obtain ⟨rfl, rfl⟩ := Prod.mk.inj (Option.some.inj hperform)
      have hbelow : unread.length < N := by
        have hpos := hlayout.pos
        have hfits := hlayout.fits
        omega
      have hdistance : (s.1.shared.head + N - s.1.shared.tail) % N = unread.length :=
        distance_of_index hlayout.tail_lt hbelow h.head
      exact ⟨unread, h.reader_moves h.content rfl rfl hdistance.le
        (hnext _ ⟨⟨unread.length, hknown, hbelow, h.head⟩, hsteady⟩)
        (by simpa [Progress.after] using hdone) (by simpa [Progress.after] using h.fetched)⟩
  | copyOut start count =>
      obtain ⟨rfl, rfl⟩ := Prod.mk.inj (Option.some.inj hperform)
      obtain ⟨hstart, hend, hcount⟩ : start = (s.1.shared.tail + s.2.reader.moved.length) % N ∧
        start + count ≤ N ∧ s.2.reader.moved.length + count ≤ known := hgood
      have hpiece := h.content.front.copyOut hstart hend (hcount.trans hknown)
      have hlength : ((s.1.shared.buffer.drop start).take count).length = count := by
        rw [hpiece, List.length_take, List.length_drop]
        omega
      refine ⟨unread, h.reader_moves h.content rfl rfl hknown (hnext _ hlength) hdone ?_⟩
      show s.2.reader.moved ++ (s.1.shared.buffer.drop start).take count <+: unread
      have hjoined : s.2.reader.moved ++ (unread.drop s.2.reader.moved.length).take count =
          unread.take (s.2.reader.moved.length + count) := by
        rw [List.take_add, ← List.prefix_iff_eq_take.mp h.fetched]
      rw [hpiece, hjoined]
      exact List.take_prefix _ _
  | storeTail value =>
      obtain ⟨-, rfl⟩ := Prod.mk.inj (Option.some.inj hperform)
      exact ⟨_, h.reader_stores hgood (hnext () trivial)⟩

theorem Linked.writer_step (h : Linked N written s unread) {interrupted : Bool}
    {next : c.access.Result → RingProgram (Nat × List UInt8)}
    (hsteady : Steady s (.call .writer interrupted)) (hcode : s.1.code .writer = .call c next)
    (hperform : s.1.shared.perform interrupted c = some (r, rb)) :
    ∃ unread', Linked N written (stepped s .writer rb held c r (next r)) unread' := by
  obtain ⟨known, hknown, hwrites⟩ := h.writes
  rw [hcode] at hwrites
  obtain ⟨⟨_, hgood⟩, hnext⟩ := hwrites
  have hlayout := h.layout
  have hfits := hlayout.fits
  have hpos := hlayout.pos
  obtain ⟨site, access⟩ := c
  cases access with
  | storeTail value => exact hgood.elim
  | copyOut start count => exact hgood.elim
  | lockTake =>
      obtain ⟨lock, rfl⟩ : ∃ lock, rb = { s.1.shared with lock := lock } := by
        simp only [RingBuffer.perform] at hperform
        split at hperform
        · exact ⟨s.1.shared.lock, (Prod.mk.inj (Option.some.inj hperform)).2.symm⟩
        · split at hperform
          · exact ⟨s.1.shared.lock, (Prod.mk.inj (Option.some.inj hperform)).2.symm⟩
          · split at hperform
            · cases hperform
            · exact ⟨_, (Prod.mk.inj (Option.some.inj hperform)).2.symm⟩
      exact ⟨unread, h.writer_moves (h.content.with_lock _) rfl rfl hknown (hnext r trivial) rfl⟩
  | lockGive =>
      obtain ⟨-, rfl⟩ := Prod.mk.inj (Option.some.inj hperform)
      exact ⟨unread, h.writer_moves (h.content.with_lock _) rfl rfl hknown (hnext r trivial) rfl⟩
  | loadSize =>
      obtain ⟨rfl, rfl⟩ := Prod.mk.inj (Option.some.inj hperform)
      exact ⟨unread, h.writer_moves (by simpa [Progress.after] using h.content) rfl rfl hknown
        (hnext _ hlayout.size) rfl⟩
  | loadHead =>
      obtain ⟨rfl, rfl⟩ := Prod.mk.inj (Option.some.inj hperform)
      exact ⟨unread, h.writer_moves (by simpa [Progress.after] using h.content) rfl rfl hknown
        (hnext _ rfl) rfl⟩
  | loadTail =>
      obtain ⟨rfl, rfl⟩ := Prod.mk.inj (Option.some.inj hperform)
      have hbelow : N - 1 - unread.length < N := by omega
      have hroom : s.1.shared.tail =
          (s.1.shared.head + 1 + (N - 1 - unread.length)) % N := by
        rw [h.head, Nat.add_assoc, Nat.mod_add_mod, Nat.add_assoc,
          show unread.length + (1 + (N - 1 - unread.length)) = N by omega, Nat.add_mod_right,
          Nat.mod_eq_of_lt hlayout.tail_lt]
      have hdistance : (s.1.shared.tail + N - (s.1.shared.head + 1)) % N = N - 1 - unread.length :=
        room_of_index hlayout.head_lt hbelow hroom
      exact ⟨unread, h.writer_moves (by simpa [Progress.after] using h.content) rfl rfl
        hdistance.le (hnext _ ⟨⟨_, hknown, hbelow, hroom⟩, hsteady⟩) rfl⟩
  | copyIn start block =>
      obtain ⟨-, rfl⟩ := Prod.mk.inj (Option.some.inj hperform)
      obtain ⟨-, hstart, hend, hcount⟩ : s.2.writer.done = [] ∧
        start = (s.1.shared.head + s.2.writer.moved.length) % N ∧
        start + block.length ≤ N ∧ s.2.writer.moved.length + block.length ≤ known := hgood
      have hbehind : start = (s.1.shared.tail + (unread ++ s.2.writer.moved).length) % N := by
        rw [hstart, h.head, Nat.mod_add_mod, List.length_append, Nat.add_assoc]
      have hcontent := h.content.copyIn hbehind hend (by rw [List.length_append]; omega)
      rw [List.append_assoc] at hcontent
      exact ⟨unread, h.writer_moves hcontent rfl rfl hknown (hnext r trivial) rfl⟩
  | storeHead value =>
      obtain ⟨-, rfl⟩ := Prod.mk.inj (Option.some.inj hperform)
      exact ⟨_, h.writer_stores hgood.2 (hnext () trivial)⟩

theorem Linked.reader_begins (h : Linked N written s unread) (hsize : N ≤ 2 ^ 63) (wanted : Nat) :
    Linked N written (⟨s.1.shared, Function.update s.1.code .reader (RingOp.readN wanted).code, held⟩,
      { s.2 with reader := {} }) unread := by
  refine ⟨h.content, h.head, ⟨0, Nat.zero_le _, ?_⟩, ?_, List.nil_prefix, h.order⟩
  · dsimp only
    rw [Function.update_self]
    exact ringBufferReadN_obeys hsize h.layout.tail_lt wanted
  · dsimp only
    rw [Function.update_of_ne (by decide)]
    exact h.writes

theorem RingOp.code_obeys {op : RingOp} (hplays : Party.writer.plays op = true) {index : Nat}
    (hsize : N ≤ 2 ^ 63) (hindex : index < N) :
    op.code.Obeys writing (Accepts op.data) ⟨N, index, 0, {}⟩ := by
  cases op with
  | writeN data => exact (ringBufferWriteN_obeys hsize hindex data).bind fun _ _ h => h
  | writeExactN data => exact (ringBufferWriteExactN_obeys hsize hindex data).bind fun _ _ h => h
  | readN wanted => cases hplays
  | usedSpace => cases hplays
  | freeSpace => cases hplays

theorem Linked.writer_begins (h : Linked N written s unread) (hsize : N ≤ 2 ^ 63)
    {out : Nat × List UInt8} (hidle : s.1.code .writer = .ret out) {op : RingOp}
    (hplays : Party.writer.plays op = true) :
    Linked N written (⟨s.1.shared, Function.update s.1.code .writer op.code, held⟩,
      { s.2 with writer := {}, offered := op.data }) unread := by
  obtain ⟨known, _, hwrites⟩ := h.writes
  rw [hidle] at hwrites
  have hmoved : s.2.writer.moved = [] := hwrites.2.1
  have hcontent := h.content
  rw [hmoved] at hcontent
  refine ⟨hcontent, h.head, ?_, ⟨0, Nat.zero_le _, ?_⟩, h.fetched, h.order⟩
  · dsimp only
    rw [Function.update_of_ne (by decide)]
    exact h.reads
  · dsimp only
    rw [Function.update_self]
    exact RingOp.code_obeys hplays hsize h.layout.head_lt

theorem Linked.step (h : Linked N written s unread) (hsize : N ≤ 2 ^ 63)
    {label : PoolLabel Party Bool RingOp} {t : RingPool Party × Exchange}
    (hsteady : Steady s label) (hstep : exchangeStep label s = some t) :
    ∃ unread', Linked N written t unread' := by
  cases label with
  | begin i op =>
      simp only [exchangeStep] at hstep
      split at hstep
      · next hplays =>
          obtain ⟨hpool, hnote⟩ := noting_eq_some hstep
          obtain ⟨t₁, t₂⟩ := t
          simp only [ringStep, Pool.step] at hpool
          split at hpool
          · next out hidle =>
              obtain rfl := Option.some.inj hpool
              cases i with
              | writer =>
                  obtain rfl : t₂ = { s.2 with writer := {}, offered := op.data } := hnote
                  exact ⟨unread, h.writer_begins hsize hidle hplays⟩
              | reader =>
                  obtain rfl : t₂ = { s.2 with reader := {} } := hnote
                  obtain ⟨wanted, rfl⟩ : ∃ wanted, op = .readN wanted := by
                    cases op with
                    | readN wanted => exact ⟨wanted, rfl⟩
                    | writeN data => cases hplays
                    | writeExactN data => cases hplays
                    | usedSpace => cases hplays
                    | freeSpace => cases hplays
                  exact ⟨unread, h.reader_begins hsize wanted⟩
          · cases hpool
      · cases hstep
  | call i interrupted =>
      obtain ⟨hpool, hnote⟩ := noting_eq_some hstep
      obtain ⟨t₁, t₂⟩ := t
      simp only [ringStep, Pool.step] at hpool
      split at hpool
      · cases hpool
      · next c next hcode =>
          obtain ⟨⟨r, rb⟩, hperform, rfl⟩ := Option.map_eq_some_iff.mp hpool
          have hmade : Exchange.note (.call i interrupted) s.1 s.2 = s.2.made i c r (next r) := by
            simp only [Exchange.note, hcode, hperform]
          obtain rfl : t₂ = s.2.made i c r (next r) := hnote.trans hmade
          cases i with
          | reader => exact h.reader_step hsteady hcode hperform
          | writer => exact h.writer_step hsteady hcode hperform

theorem Linked.spares (h : Linked N written s unread) {site : RingFunction} {start : Nat}
    {block : List UInt8} (hnext : (s.1.code .writer).nextCall = some ⟨site, .copyIn start block⟩) :
    start + block.length ≤ N ∧ ∀ k < unread.length,
      (s.1.shared.tail + k) % N ∉ Set.Ico start (start + block.length) := by
  obtain ⟨room, hroom, hwrites⟩ := h.writes
  cases hcode : s.1.code .writer with
  | ret out =>
      rw [hcode] at hnext
      cases hnext
  | call c next =>
      rw [hcode] at hnext hwrites
      obtain rfl := Option.some.inj hnext
      obtain ⟨-, hstart, hend, hcount⟩ : s.2.writer.done = [] ∧
        start = (s.1.shared.head + s.2.writer.moved.length) % N ∧
        start + block.length ≤ N ∧ s.2.writer.moved.length + block.length ≤ room := hwrites.1.2
      refine ⟨hend, ?_⟩
      rintro k hk ⟨hle, hlt⟩
      -- a position in the block is that many bytes behind the copied ones
      obtain ⟨j, hj⟩ : ∃ j, (s.1.shared.tail + k) % N = start + j := Nat.exists_eq_add_of_le hle
      have hplace : start + j =
          (s.1.shared.tail + (unread.length + s.2.writer.moved.length + j)) % N := by
        rw [← Nat.mod_eq_of_lt (by omega : start + j < N), hstart, h.head, Nat.mod_add_mod,
          Nat.add_assoc, Nat.mod_add_mod]
        congr 1
        omega
      exact cyclic_ne (by omega) (by omega) (hj.trans hplace)

/-- Every reader and writer state that is linked keeps what is promised. -/
theorem Linked.faithful {rb : RingBuffer} (h : Linked N rb.unread s unread) : Faithful rb s := by
  obtain ⟨known, hknown, hreads⟩ := h.reads
  obtain ⟨room, hroom, hwrites⟩ := h.writes
  have hlayout := h.layout
  have hunread : s.1.shared.unread = unread := hlayout.unread_eq
  refine ⟨?_, ?_, ?_, ?_, ?_, ?_⟩
  · cases hcode : s.1.code .reader with
    | ret out =>
        rw [hcode] at hreads
        exact hreads.1
    | call c next =>
        rw [hcode] at hreads
        exact hreads.1.1
  · cases hcode : s.1.code .writer with
    | ret out =>
        rw [hcode] at hwrites
        exact hwrites.1
    | call c next =>
        rw [hcode] at hwrites
        exact hwrites.1.1
  · intro site start block hnext
    rw [hunread, hlayout.size]
    exact h.spares hnext
  · rw [hunread]
    exact h.order
  · intro out hcode
    rw [hcode] at hreads
    exact hreads.2.2.trans (congrArg List.length hreads.2.1.symm)
  · intro out hcode
    rw [hcode] at hwrites
    exact hwrites.2.2

end Step

/-- In every run from a buffer whose indices lie in the storage, reader and writer interleaved in
any way, as long as no space function is overtaken: no subtraction underflows, no copy into the
buffer touches an unread byte, and reads return the written bytes in order. -/
theorem exchange_of_run (rb : RingBuffer) (hvalid : rb.Valid) (hsize : rb.size ≤ 2 ^ 63)
    (s : RingPool Party × Exchange) (hrun : Run exchangeStep Steady (exchange rb) s) :
    Faithful rb s := by
  have hstart : ∃ unread, Linked rb.size rb.unread (exchange rb) unread := by
    have hlayout := hvalid.layout
    refine ⟨rb.unread, ?_, hlayout.head, ⟨0, Nat.zero_le _, trivial, rfl, rfl⟩,
      ⟨0, Nat.zero_le _, trivial, rfl, rfl, rfl⟩, List.nil_prefix, List.append_nil _⟩
    show RingContent rb.size rb (rb.unread ++ [])
    rw [List.append_nil]
    exact hlayout.content
  obtain ⟨unread, hlinked⟩ : ∃ unread, Linked rb.size rb.unread s unread := by
    induction hrun with
    | start => exact hstart
    | next label _ met taken ih =>
        obtain ⟨unread, h⟩ := ih
        exact h.step hsize met taken
  exact hlinked.faithful

private def steps (i : Party) (n : Nat) : List (PoolLabel Party Bool RingOp) :=
  List.replicate n (.call i false)

private def steadyCheck (s : RingPool Party × Exchange) : PoolLabel Party Bool RingOp → Bool
  | .call .reader _ =>
      s.2.reader.loads.length != 2 || decide (s.1.shared.tail ≤ s.1.shared.head)
  | .call .writer _ =>
      s.2.writer.loads.length != 2 || decide (s.1.shared.head < s.1.shared.tail) ||
        decide (s.2.writer.loads.getD 1 0 ≤ s.2.writer.loads.getD 0 0)
  | .begin _ _ => true

private theorem steady_of_check (s : RingPool Party × Exchange)
    (label : PoolLabel Party Bool RingOp) (h : steadyCheck s label = true) : Steady s label := by
  rcases label with ⟨i | i, interrupted⟩ | ⟨i, op⟩
  · intro head tail hloads _
    simpa [steadyCheck, hloads] using h
  · intro head tail hloads hlt
    simpa [steadyCheck, hloads, Nat.not_le.mpr hlt] using h
  · trivial

/-- A write is copied and its head stored while a read is under way; the read returns what was
there when it looked. -/
theorem exchange_of_run_reading :
    ∃ s, Run exchangeStep Steady (exchange ⟨[10, 11, 12, 13], 4, 2, 1, some 1⟩) s ∧
      s.2.published = [7] ∧ s.2.obtained = [11] ∧
      Faithful ⟨[10, 11, 12, 13], 4, 2, 1, some 1⟩ s := by
  obtain ⟨s, hrun, hs⟩ : ∃ s, Run exchangeStep Steady
      (exchange ⟨[10, 11, 12, 13], 4, 2, 1, some 1⟩) s ∧
      (s.2.published == [7] && s.2.obtained == [11]) = true :=
    Run.exists_of_follow steadyCheck
      (.begin .reader (.readN 8) :: steps .reader 4 ++ .begin .writer (.writeN [7]) ::
        steps .writer 12 ++ steps .reader 7) _ steady_of_check (by decide)
  simp only [Bool.and_eq_true, beq_iff_eq] at hs
  exact ⟨s, hrun, hs.1, hs.2, exchange_of_run _ ⟨rfl, by decide, by decide⟩ (by decide) s hrun⟩

/-- A write wraps the head after the reader has compared it: the used space is `0 - 1`. -/
theorem exchange_used_underflow :
    ∃ s, Run exchangeStep (fun _ _ => True) (exchange ⟨[10, 11, 12, 13], 4, 3, 1, some 1⟩) s ∧
      ¬ Faithful ⟨[10, 11, 12, 13], 4, 3, 1, some 1⟩ s := by
  obtain ⟨s, hrun, hs⟩ : ∃ s, Run exchangeStep (fun _ _ => True)
      (exchange ⟨[10, 11, 12, 13], 4, 3, 1, some 1⟩) s ∧
      (s.2.reader.loads == [3, 1, 0, 1]) = true :=
    Run.exists_of_follow (fun _ _ => true)
      (.begin .reader (.readN 2) :: steps .reader 2 ++ .begin .writer (.writeN [7]) ::
        steps .writer 12 ++ steps .reader 2) _ (fun _ _ _ => trivial) (by decide)
  refine ⟨s, hrun, fun h => ?_⟩
  have hused := h.used
  rw [beq_iff_eq.mp hs] at hused
  exact absurd (hused (by decide)) (by decide)

end YaskawaComms.Logging
