import YaskawaComms.Logging.RingQueue

/-!
# The two sides of the ring buffer

`ring_buffer_read_n` does not take the lock, so its accesses are interleaved with those of a
writer. Each side stores one index, which only it changes, and loads the other one, which moves
under it. A monitor for each side says what the loads can return and where the copies may go.
-/

namespace YaskawaComms.Logging

open Program

/-- What a call has done so far: the values its space function has loaded, the bytes it has
copied while its index is not stored yet, and these bytes once it is. -/
structure Progress where
  loads : List Nat := []
  moved : List UInt8 := []
  done : List UInt8 := []
  deriving DecidableEq

def RingFunction.computesSpace : RingFunction → Bool
  | .freeSpaceInternal | .usedSpaceInner => true
  | _ => false

def Progress.loaded (p : Progress) (site : RingFunction) (value : Nat) : Progress :=
  if site.computesSpace then { p with loads := p.loads ++ [value] } else p

def Progress.after (p : Progress) : (c : RingCall) → c.access.Result → Progress
  | ⟨site, .loadSize⟩, value => p.loaded site value
  | ⟨site, .loadHead⟩, value => p.loaded site value
  | ⟨site, .loadTail⟩, value => p.loaded site value
  | ⟨_, .copyIn _ block⟩, _ => { p with moved := p.moved ++ block }
  | ⟨_, .copyOut _ _⟩, block => { p with moved := p.moved ++ block }
  | ⟨_, .storeHead _⟩, _ | ⟨_, .storeTail _⟩, _ => { loads := [], moved := [], done := p.moved }
  | ⟨_, .lockTake⟩, _ | ⟨_, .lockGive⟩, _ => p

/-- The subtractions of `ring_buffer_used_space_inner` on the values it has loaded. -/
def UsedSpaceFits : List Nat → Prop
  | [head, tail, head', tail'] => tail ≤ head → tail' ≤ head'
  | [head, tail, size, tail', _] => head < tail → tail' ≤ size
  | _ => True

/-- The subtractions of `ring_buffer_free_space_internal` on the values it has loaded. -/
def FreeSpaceFits : List Nat → Prop
  | [head, tail, tail'] => head < tail → head ≤ tail' ∧ 1 ≤ tail' - head
  | [head, tail, size, tail'] =>
      tail ≤ head → tail' ≤ head ∧ head - tail' ≤ size ∧ 1 ≤ size - (head - tail')
  | _ => True

/-- One side: the index it stores, how many bytes it has seen that it can move, and its call. -/
structure Side where
  size : Nat
  index : Nat
  known : Nat
  progress : Progress

/-- The accesses of the reader. The head is some bytes after the tail, never fewer than before;
when it is loaded again, it is not below the tail unless it was so at first. -/
def reading : Monitor ringSignature Side where
  good m c := UsedSpaceFits m.progress.loads ∧ m.progress.done = [] ∧
    match c.access with
    | .lockGive | .loadSize | .loadHead | .loadTail => True
    | .copyOut start count => start = (m.index + m.progress.moved.length) % m.size ∧
        start + count ≤ m.size ∧ m.progress.moved.length + count ≤ m.known
    | .storeTail value => value = (m.index + m.progress.moved.length) % m.size
    | .lockTake | .storeHead _ | .copyIn _ _ => False
  allowed
    | m, ⟨_, .loadSize⟩, value => value = m.size
    | m, ⟨_, .loadTail⟩, value => value = m.index
    | m, ⟨_, .loadHead⟩, value => (∃ n, m.known ≤ n ∧ n < m.size ∧ value = (m.index + n) % m.size) ∧
        ∀ head tail, m.progress.loads = [head, tail] → tail ≤ head → m.index ≤ value
    | _, ⟨_, .copyOut _ count⟩, block => block.length = count
    | _, _, _ => True
  next
    | m, ⟨site, .loadHead⟩, value => { m with
        known := (value + m.size - m.index) % m.size
        progress := m.progress.after ⟨site, .loadHead⟩ value }
    | m, ⟨site, .storeTail value⟩, r =>
        { m with index := value, known := 0, progress := m.progress.after ⟨site, .storeTail value⟩ r }
    | m, c, r => { m with progress := m.progress.after c r }

/-- The accesses of the writer, which must keep one byte free. -/
def writing : Monitor ringSignature Side where
  good m c := FreeSpaceFits m.progress.loads ∧
    match c.access with
    | .lockTake | .lockGive | .loadSize | .loadHead | .loadTail => True
    | .copyIn start block => m.progress.done = [] ∧
        start = (m.index + m.progress.moved.length) % m.size ∧
        start + block.length ≤ m.size ∧ m.progress.moved.length + block.length ≤ m.known
    | .storeHead value => m.progress.done = [] ∧
        value = (m.index + m.progress.moved.length) % m.size
    | .storeTail _ | .copyOut _ _ => False
  allowed
    | m, ⟨_, .loadSize⟩, value => value = m.size
    | m, ⟨_, .loadHead⟩, value => value = m.index
    | m, ⟨_, .loadTail⟩, value =>
        (∃ n, m.known ≤ n ∧ n < m.size ∧ value = (m.index + 1 + n) % m.size) ∧
        ∀ head tail, m.progress.loads = [head, tail] → head < tail → m.index < value
    | _, _, _ => True
  next
    | m, ⟨site, .loadTail⟩, value => { m with
        known := (value + m.size - (m.index + 1)) % m.size
        progress := m.progress.after ⟨site, .loadTail⟩ value }
    | m, ⟨site, .storeHead value⟩, r =>
        { m with index := value, known := 0, progress := m.progress.after ⟨site, .storeHead value⟩ r }
    | m, c, r => { m with progress := m.progress.after c r }

/-- What a read returns: the bytes it has copied, with the tail stored. -/
def HandsOver (out : Nat × List UInt8) (m : Side) : Prop :=
  UsedSpaceFits m.progress.loads ∧ out.2 = m.progress.done ∧ out.1 = m.progress.done.length

/-- What a write returns: how many of the offered bytes it has stored. -/
def Accepts (offered : List UInt8) (out : Nat × List UInt8) (m : Side) : Prop :=
  FreeSpaceFits m.progress.loads ∧ m.progress.moved = [] ∧
    m.progress.done = offered.take out.1 ∧ m.progress.done.length = out.1

section Indices

variable {size index n value : Nat}

theorem distance_of_index (hindex : index < size) (hn : n < size)
    (hvalue : value = (index + n) % size) : (value + size - index) % size = n := by
  rcases cyclic_index hindex hn.le with ⟨hlt, hmod⟩ | ⟨hle, hmod⟩
  · rw [hvalue, hmod, show index + n + size - index = n + size by omega, Nat.add_mod_right,
      Nat.mod_eq_of_lt hn]
  · rw [hvalue, show (index + n) % size + size - index = n by omega, Nat.mod_eq_of_lt hn]

theorem room_of_index (hindex : index < size) (hn : n < size)
    (hvalue : value = (index + 1 + n) % size) : (value + size - (index + 1)) % size = n := by
  have hlt : value < size := hvalue ▸ Nat.mod_lt _ (by omega)
  by_cases hlast : index + 1 = size
  · have hn' : value = n := by
      rw [hvalue, hlast, Nat.add_mod_left, Nat.mod_eq_of_lt hn]
    rw [hn', hlast, Nat.add_sub_cancel, Nat.mod_eq_of_lt hn]
  · exact distance_of_index (by omega) hn hvalue

variable {n' value' : Nat}

theorem used_space_of_le (hsize : size ≤ 2 ^ 63) (hindex : index < size) (hn : n < size)
    (hvalue : value = (index + n) % size) (hle : index ≤ value) : subSize value index = n := by
  have hlt : value < size := hvalue ▸ Nat.mod_lt _ (by omega)
  rw [subSize_eq hle (by omega)]
  rcases cyclic_index hindex hn.le with ⟨_, hmod⟩ | ⟨_, hmod⟩
  · omega
  · omega

theorem used_space_of_lt (hsize : size ≤ 2 ^ 63) (hindex : index < size) (hn' : n' < size)
    (hmono : n ≤ n') (hvalue : value = (index + n) % size) (hlt : value < index)
    (hvalue' : value' = (index + n') % size) : addSize (subSize size index) value' = n' := by
  have hwrap : size ≤ index + n := by
    rcases cyclic_index hindex (by omega : n ≤ size) with ⟨_, hmod⟩ | ⟨hle, _⟩
    · omega
    · exact hle
  rcases cyclic_index hindex hn'.le with ⟨hshort, _⟩ | ⟨_, hmod'⟩
  · omega
  · rw [subSize_eq hindex.le (by omega), addSize_eq (by omega)]
    omega

theorem free_space_of_lt (hsize : size ≤ 2 ^ 63) (hindex : index < size) (hn : n < size)
    (hvalue : value = (index + 1 + n) % size) (hlt : index < value) :
    subSize (subSize value index) 1 = n ∧ index ≤ value ∧ 1 ≤ value - index := by
  have hbound : value < size := hvalue ▸ Nat.mod_lt _ (by omega)
  rw [subSize_eq hlt.le (by omega), subSize_eq (by omega) (by omega)]
  rcases cyclic_index hindex (by omega : 1 + n ≤ size) with ⟨_, hmod⟩ | ⟨_, hmod⟩
  · rw [← Nat.add_assoc] at hmod
    omega
  · rw [← Nat.add_assoc] at hmod
    omega

theorem free_space_of_le (hsize : size ≤ 2 ^ 63) (hindex : index < size) (hn' : n' < size)
    (hmono : n ≤ n') (hvalue : value = (index + 1 + n) % size) (hle : value ≤ index)
    (hvalue' : value' = (index + 1 + n') % size) :
    subSize (subSize size (subSize index value')) 1 = n' ∧ value' ≤ index ∧
      index - value' ≤ size ∧ 1 ≤ size - (index - value') := by
  have hback : value' + size = index + 1 + n' := by
    rcases cyclic_index hindex (by omega : 1 + n ≤ size) with ⟨_, hmod⟩ | ⟨hwrap, _⟩
    · rw [← Nat.add_assoc] at hmod
      omega
    · rcases cyclic_index hindex (by omega : 1 + n' ≤ size) with ⟨_, _⟩ | ⟨_, hmod'⟩
      · omega
      · rw [← Nat.add_assoc] at hmod'
        omega
  have hbelow : value' ≤ index := by omega
  have hdiff : subSize index value' = index - value' := subSize_eq hbelow (by omega)
  have hrest : subSize size (index - value') = size - (index - value') :=
    subSize_eq (by omega) (by omega)
  rw [hdiff, hrest, subSize_eq (by omega) (by omega)]
  omega

end Indices

section Reader

variable {m : Side}

/-- The space function has come to its end and no byte has been copied. -/
structure Side.Surveyed (m : Side) (fits : List Nat → Prop) (size index space : Nat) : Prop where
  fits : fits m.progress.loads
  size_eq : m.size = size
  index_eq : m.index = index
  known_eq : m.known = space
  space_lt : space < size
  moved : m.progress.moved = []
  done : m.progress.done = []

theorem Side.Surveyed.eq {fits : List Nat → Prop} {size index space : Nat}
    (h : m.Surveyed fits size index space) : m = ⟨size, index, space, { loads := m.progress.loads }⟩ := by
  obtain ⟨_, _, _, loads, moved, done⟩ := m
  obtain ⟨-, rfl, rfl, rfl, -, rfl, rfl⟩ := h
  rfl

theorem usedSpaceInner_obeys {size index : Nat} (hsize : size ≤ 2 ^ 63) (hindex : index < size) :
    ringBufferUsedSpaceInner.Obeys reading (fun used m => m.Surveyed UsedSpaceFits size index used)
      ⟨size, index, 0, {}⟩ := by
  refine obeys_call ⟨trivial, rfl, trivial⟩ ?_
  rintro head ⟨⟨n, -, hn, hhead⟩, -⟩
  have hknown : (head + size - index) % size = n := distance_of_index hindex hn hhead
  refine obeys_call ⟨trivial, rfl, trivial⟩ ?_
  rintro tail htail
  obtain rfl : tail = index := htail
  apply obeys_ite
  · intro hle
    refine obeys_call ⟨trivial, rfl, trivial⟩ ?_
    rintro head' ⟨⟨n', -, hn', hhead'⟩, hagain⟩
    have hstill : tail ≤ head' := hagain head tail rfl hle
    refine obeys_call ⟨trivial, rfl, trivial⟩ ?_
    rintro tail' htail'
    obtain rfl : tail' = tail := htail'
    have hused : subSize head' tail' = n' := used_space_of_le hsize hindex hn' hhead' hstill
    exact ⟨fun _ => hstill, rfl, rfl, (distance_of_index hindex hn' hhead').trans hused.symm,
      hused ▸ hn', rfl, rfl⟩
  · intro hlt
    have hbranch : ¬ tail ≤ head := hlt
    refine obeys_call ⟨trivial, rfl, trivial⟩ ?_
    rintro size' hsize'
    obtain rfl : size' = size := hsize'
    refine obeys_call ⟨trivial, rfl, trivial⟩ ?_
    rintro tail' htail'
    obtain rfl : tail' = tail := htail'
    refine obeys_call ⟨fun hle => absurd hle hbranch, rfl, trivial⟩ ?_
    rintro head' ⟨⟨n', hmono, hn', hhead'⟩, -⟩
    have hused : addSize (subSize size' tail') head' = n' :=
      used_space_of_lt hsize hindex hn' (hknown ▸ hmono) hhead (Nat.lt_of_not_le hbranch) hhead'
    exact ⟨fun _ => hindex.le, rfl, rfl, (distance_of_index hindex hn' hhead').trans hused.symm,
      hused ▸ hn', rfl, rfl⟩

theorem reading_load {α : Type} {post : α → Side → Prop} {a : RingAccess}
    {f : a.Result → RingProgram α} (hload : a = .loadSize ∨ a = .loadTail)
    (hfits : UsedSpaceFits m.progress.loads) (hdone : m.progress.done = [])
    (hnext : ∀ value, reading.allowed m ⟨.readN, a⟩ value → (f value).Obeys reading post m) :
    (Program.call ⟨.readN, a⟩ .ret >>= f : RingProgram α).Obeys reading post m := by
  rcases hload with rfl | rfl
  · exact obeys_keep ⟨hfits, hdone, trivial⟩ (fun _ => rfl) hnext
  · exact obeys_keep ⟨hfits, hdone, trivial⟩ (fun _ => rfl) hnext

theorem readN_finish {loads : List Nat} {size index known n : Nat} {data : List UInt8}
    (hfits : UsedSpaceFits loads) (hn : data.length = n) (hsum : index + n < 2 ^ 64) :
    (do
      let tail ← loadTail .readN
      let rbSize ← loadSize .readN
      storeTail .readN (addSize tail n % rbSize)
      return (n, data) : RingProgram (Nat × List UInt8)).Obeys reading HandsOver
        ⟨size, index, known, ⟨loads, data, []⟩⟩ := by
  apply reading_load (Or.inr rfl) hfits rfl
  rintro tail htail
  obtain rfl : tail = index := htail
  apply reading_load (Or.inl rfl) hfits rfl
  rintro bound hbound
  obtain rfl : bound = size := hbound
  rw [addSize_eq hsum]
  refine obeys_call ⟨hfits, rfl, by rw [← hn]⟩ ?_
  intro _ _
  exact ⟨trivial, rfl, hn.symm⟩

/-- The copies of a read: a first piece that ends at the end of the storage if it is not all. -/
theorem readN_copies {loads : List Nat} {size index known n first : Nat}
    (hfits : UsedSpaceFits loads) (hsize : size ≤ 2 ^ 63) (hindex : index < size)
    (hn : n ≤ known) (hknown : known < size) (hfirst : first ≤ n) (hend : index + first ≤ size)
    (hcut : first < n → index + first = size) :
    (do
      let tail ← loadTail .readN
      let mut data ← copyOut .readN tail first
      if first < n then
        let wrapped ← copyOut .readN 0 (subSize n first)
        data := data ++ wrapped
      let tail ← loadTail .readN
      let rbSize ← loadSize .readN
      storeTail .readN (addSize tail n % rbSize)
      return (n, data) : RingProgram (Nat × List UInt8)).Obeys reading HandsOver
        ⟨size, index, known, ⟨loads, [], []⟩⟩ := by
  have hsum : index + n < 2 ^ 64 := by omega
  apply reading_load (Or.inr rfl) hfits rfl
  rintro tail htail
  obtain rfl : tail = index := htail
  refine obeys_call ⟨hfits, rfl, (Nat.mod_eq_of_lt hindex).symm, hend, ?_⟩ ?_
  · simpa using hfirst.trans hn
  intro data hdata
  have hlength : data.length = first := hdata
  apply obeys_ite
  · intro hmore
    have hrest : subSize n first = n - first := subSize_eq hfirst (by omega)
    rw [hrest]
    refine obeys_call ⟨hfits, rfl, ?_, by show 0 + (n - first) ≤ size; omega, ?_⟩ ?_
    · show 0 = (tail + ([] ++ data).length) % size
      rw [List.nil_append, hlength, hcut hmore, Nat.mod_self]
    · show ([] ++ data).length + (n - first) ≤ known
      rw [List.nil_append]
      omega
    intro wrapped hwrapped
    have hlength' : wrapped.length = n - first := hwrapped
    exact readN_finish hfits (by rw [List.length_append]; omega) hsum
  · intro hmore
    exact readN_finish hfits (by omega) hsum

theorem ringBufferReadN_obeys {size index : Nat} (hsize : size ≤ 2 ^ 63) (hindex : index < size)
    (wanted : Nat) : (ringBufferReadN wanted).Obeys reading HandsOver ⟨size, index, 0, {}⟩ := by
  rw [ringBufferReadN]
  apply obeys_ite
  · intro _
    exact ⟨trivial, rfl, rfl⟩
  intro _
  refine (usedSpaceInner_obeys hsize hindex).bind ?_
  intro used m hm
  rw [hm.eq]
  have hfits : UsedSpaceFits m.progress.loads := hm.fits
  have hused : used < size := hm.space_lt
  generalize m.progress.loads = loads at hfits
  have hle : (if wanted ≤ used then wanted else used) ≤ used := by
    split
    · assumption
    · exact le_rfl
  generalize (if wanted ≤ used then wanted else used) = n at hle
  apply obeys_ite
  · intro _
    exact obeys_call ⟨hfits, rfl, trivial⟩ fun _ _ => ⟨hfits, rfl, rfl⟩
  intro hpos
  have hsum : addSize index n = index + n := addSize_eq (by omega)
  apply reading_load (Or.inr rfl) hfits rfl
  rintro tail htail
  obtain rfl : tail = index := htail
  apply reading_load (Or.inl rfl) hfits rfl
  rintro bound hbound
  obtain rfl : bound = size := hbound
  rw [hsum]
  apply obeys_ite
  · intro hcross
    apply reading_load (Or.inl rfl) hfits rfl
    rintro bound' hbound'
    obtain rfl : bound' = bound := hbound'
    apply reading_load (Or.inr rfl) hfits rfl
    rintro tail' htail'
    obtain rfl : tail' = tail := htail'
    have hfirst : subSize bound' tail' = bound' - tail' := subSize_eq hindex.le (by omega)
    rw [hfirst]
    exact readN_copies hfits hsize hindex hle hused (by omega) (by omega) (by omega)
  · intro hfit
    exact readN_copies hfits hsize hindex hle hused le_rfl (by omega) (by omega)

end Reader

section Writer

variable {m : Side} {offered : List UInt8}

theorem freeSpaceInternal_obeys {size index : Nat} (hsize : size ≤ 2 ^ 63)
    (hindex : index < size) :
    ringBufferFreeSpaceInternal.Obeys writing
      (fun free m => m.Surveyed FreeSpaceFits size index free) ⟨size, index, 0, {}⟩ := by
  refine obeys_call ⟨trivial, trivial⟩ ?_
  rintro head hhead
  obtain rfl : head = index := hhead
  refine obeys_call ⟨trivial, trivial⟩ ?_
  rintro tail ⟨⟨n, -, hn, htail⟩, -⟩
  have hknown : (tail + size - (head + 1)) % size = n := room_of_index hindex hn htail
  apply obeys_ite
  · intro hle
    refine obeys_call ⟨trivial, trivial⟩ ?_
    rintro size' hsize'
    obtain rfl : size' = size := hsize'
    refine obeys_call ⟨fun hlt => absurd hlt (Nat.not_lt.mpr hle), trivial⟩ ?_
    rintro tail' ⟨⟨n', hmono, hn', htail'⟩, -⟩
    obtain ⟨hfree, hfits⟩ := free_space_of_le hsize hindex hn' (hknown ▸ hmono) htail hle htail'
    exact ⟨fun _ => hfits, rfl, rfl, (room_of_index hindex hn' htail').trans hfree.symm,
      hfree ▸ hn', rfl, rfl⟩
  · intro hnle
    have hlt : head < tail := Nat.lt_of_not_le hnle
    refine obeys_call ⟨trivial, trivial⟩ ?_
    rintro tail' ⟨⟨n', -, hn', htail'⟩, hagain⟩
    obtain ⟨hfree, hfits⟩ := free_space_of_lt hsize hindex hn' htail' (hagain head tail rfl hlt)
    exact ⟨fun _ => hfits, rfl, rfl, (room_of_index hindex hn' htail').trans hfree.symm,
      hfree ▸ hn', rfl, rfl⟩

theorem writing_load {α : Type} {post : α → Side → Prop} {a : RingAccess}
    {f : a.Result → RingProgram α} (hload : a = .loadSize ∨ a = .loadHead)
    (hfits : FreeSpaceFits m.progress.loads)
    (hnext : ∀ value, writing.allowed m ⟨.writeInner, a⟩ value → (f value).Obeys writing post m) :
    (Program.call ⟨.writeInner, a⟩ .ret >>= f : RingProgram α).Obeys writing post m := by
  rcases hload with rfl | rfl
  · exact obeys_keep ⟨hfits, trivial⟩ (fun _ => rfl) hnext
  · exact obeys_keep ⟨hfits, trivial⟩ (fun _ => rfl) hnext

/-- What `ring_buffer_write_inner` leaves behind: the head is stored and the block is done. -/
def Side.Stored (block : List UInt8) (m : Side) : Prop :=
  FreeSpaceFits m.progress.loads ∧ m.progress.moved = [] ∧ m.progress.done = block

theorem writeInner_finish {loads : List Nat} {size index known n : Nat} {block : List UInt8}
    (hfits : FreeSpaceFits loads) (hn : block.length = n) (hsum : index + n < 2 ^ 64) :
    (do
      let head ← loadHead .writeInner
      let rbSize ← loadSize .writeInner
      storeHead .writeInner (addSize head n % rbSize)
      return n : RingProgram Nat).Obeys writing (fun written m => written = n ∧ m.Stored block)
        ⟨size, index, known, ⟨loads, block, []⟩⟩ := by
  apply writing_load (Or.inr rfl) hfits
  rintro head hhead
  obtain rfl : head = index := hhead
  apply writing_load (Or.inl rfl) hfits
  rintro bound hbound
  obtain rfl : bound = size := hbound
  rw [addSize_eq hsum]
  refine obeys_call ⟨hfits, rfl, by rw [← hn]⟩ ?_
  intro _ _
  exact ⟨rfl, trivial, rfl, rfl⟩

/-- The copies of a write: a first piece that ends at the end of the storage if it is not all. -/
theorem writeInner_copies {loads : List Nat} {size index known n first : Nat} {data : List UInt8}
    (hfits : FreeSpaceFits loads) (hsize : size ≤ 2 ^ 63) (hindex : index < size)
    (hdata : n ≤ data.length) (hn : n ≤ known) (hknown : known < size) (hfirst : first ≤ n)
    (hend : index + first ≤ size) (hcut : first < n → index + first = size) :
    (do
      let head ← loadHead .writeInner
      copyIn .writeInner head (data.take first)
      if first < n then
        copyIn .writeInner 0 ((data.drop first).take (subSize n first))
      let head ← loadHead .writeInner
      let rbSize ← loadSize .writeInner
      storeHead .writeInner (addSize head n % rbSize)
      return n : RingProgram Nat).Obeys writing
        (fun written m => written = n ∧ m.Stored (data.take n))
        ⟨size, index, known, ⟨loads, [], []⟩⟩ := by
  have hlength : (data.take first).length = first := by
    rw [List.length_take]
    omega
  have hsum : index + n < 2 ^ 64 := by omega
  apply writing_load (Or.inr rfl) hfits
  rintro head hhead
  obtain rfl : head = index := hhead
  refine obeys_call ⟨hfits, rfl, (Nat.mod_eq_of_lt hindex).symm, by rwa [hlength], ?_⟩ ?_
  · show 0 + (data.take first).length ≤ known
    omega
  intro _ _
  apply obeys_ite
  · intro hmore
    have hrest : subSize n first = n - first := subSize_eq hfirst (by omega)
    have hlength' : ((data.drop first).take (n - first)).length = n - first := by
      rw [List.length_take, List.length_drop]
      omega
    have hall : data.take first ++ (data.drop first).take (n - first) = data.take n := by
      rw [List.take_drop, Nat.add_sub_cancel' hfirst]
      conv_rhs => rw [← List.take_append_drop first (data.take n), List.take_take,
        Nat.min_eq_left hfirst]
    rw [hrest]
    refine obeys_call ⟨hfits, rfl, ?_, by rw [hlength']; show 0 + (n - first) ≤ size; omega, ?_⟩ ?_
    · show 0 = (head + ([] ++ data.take first).length) % size
      rw [List.nil_append, hlength, hcut hmore, Nat.mod_self]
    · show ([] ++ data.take first).length + ((data.drop first).take (n - first)).length ≤ known
      rw [List.nil_append, hlength, hlength']
      omega
    intro _ _
    rw [← hall]
    exact writeInner_finish hfits (by rw [List.length_append]; omega) hsum
  · intro hmore
    obtain rfl : first = n := by omega
    exact writeInner_finish hfits hlength hsum

theorem ringBufferWriteInner_obeys {loads : List Nat} {size index known n : Nat}
    {data : List UInt8} (hfits : FreeSpaceFits loads) (hsize : size ≤ 2 ^ 63)
    (hindex : index < size) (hdata : n ≤ data.length) (hn : n ≤ known) (hknown : known < size) :
    (ringBufferWriteInner data n).Obeys writing
      (fun written m => written = n ∧ m.Stored (data.take n))
      ⟨size, index, known, ⟨loads, [], []⟩⟩ := by
  have hsum : addSize index n = index + n := addSize_eq (by omega)
  apply writing_load (Or.inr rfl) hfits
  rintro head hhead
  obtain rfl : head = index := hhead
  apply writing_load (Or.inl rfl) hfits
  rintro bound hbound
  obtain rfl : bound = size := hbound
  rw [hsum]
  apply obeys_ite
  · intro hcross
    apply writing_load (Or.inl rfl) hfits
    rintro bound' hbound'
    obtain rfl : bound' = bound := hbound'
    apply writing_load (Or.inr rfl) hfits
    rintro head' hhead'
    obtain rfl : head' = head := hhead'
    have hfirst : subSize bound' head' = bound' - head' := subSize_eq hindex.le (by omega)
    rw [hfirst]
    exact writeInner_copies hfits hsize hindex hdata hn hknown (by omega) (by omega) (by omega)
  · intro hfit
    exact writeInner_copies hfits hsize hindex hdata hn hknown le_rfl (by omega) (by omega)

/-- The common part of both write functions, which differ in how much they write of the data. -/
theorem writeLocked_obeys {site : RingFunction} {size index : Nat} {data : List UInt8}
    (amount : Nat → Nat) (hsize : size ≤ 2 ^ 63) (hindex : index < size)
    (hfree : ∀ free, amount free ≤ free) (hdata : ∀ free, amount free ≤ data.length) :
    (do
      if !(← lockTake site) then
        return 0
      let freeSpace ← ringBufferFreeSpaceInternal
      if amount freeSpace = 0 then
        lockGive site
        return 0
      let written ← ringBufferWriteInner data (amount freeSpace)
      lockGive site
      return written : RingProgram Nat).Obeys writing
        (fun written m => Accepts data (written, []) m) ⟨size, index, 0, {}⟩ := by
  refine obeys_call ⟨trivial, trivial⟩ ?_
  rintro taken -
  apply obeys_ite
  · intro _
    exact ⟨trivial, rfl, List.take_zero.symm, rfl⟩
  intro _
  refine (freeSpaceInternal_obeys hsize hindex).bind ?_
  intro free m hm
  rw [hm.eq]
  have hfits : FreeSpaceFits m.progress.loads := hm.fits
  generalize m.progress.loads = loads at hfits
  apply obeys_ite
  · intro _
    exact obeys_call ⟨hfits, trivial⟩ fun _ _ => ⟨hfits, rfl, List.take_zero.symm, rfl⟩
  · intro _
    refine (ringBufferWriteInner_obeys hfits hsize hindex (hdata free) (hfree free)
      hm.space_lt).bind ?_
    rintro written m' ⟨rfl, hfits', hmoved, hdone⟩
    refine obeys_call ⟨hfits', trivial⟩ fun _ _ => ⟨hfits', hmoved, hdone, ?_⟩
    show m'.progress.done.length = amount free
    rw [hdone, List.length_take]
    exact Nat.min_eq_left (hdata free)

theorem ringBufferWriteN_obeys {size index : Nat} (hsize : size ≤ 2 ^ 63) (hindex : index < size)
    (data : List UInt8) : (ringBufferWriteN data data.length).Obeys writing
      (fun written m => Accepts data (written, []) m) ⟨size, index, 0, {}⟩ := by
  rw [ringBufferWriteN]
  apply obeys_ite
  · intro _
    exact ⟨trivial, rfl, List.take_zero.symm, rfl⟩
  · intro _
    apply writeLocked_obeys (fun free => if data.length ≤ free then data.length else free)
      hsize hindex
    · intro free
      split <;> omega
    · intro free
      split <;> omega

theorem ringBufferWriteExactN_obeys {size index : Nat} (hsize : size ≤ 2 ^ 63)
    (hindex : index < size) (data : List UInt8) :
    (ringBufferWriteExactN data data.length).Obeys writing
      (fun written m => Accepts data (written, []) m) ⟨size, index, 0, {}⟩ := by
  rw [ringBufferWriteExactN]
  apply obeys_ite
  · intro _
    exact ⟨trivial, rfl, List.take_zero.symm, rfl⟩
  · intro _
    apply writeLocked_obeys (fun free => if data.length ≤ free then data.length else 0)
      hsize hindex
    · intro free
      split <;> omega
    · intro free
      split <;> omega

end Writer

end YaskawaComms.Logging
