import YaskawaComms.Protocol.Wire
import Mathlib.Data.List.Forall2

/-!
# Outgoing responses

A response is sent by one call for its header and one for its payload, and each of them may deliver
any part of its buffer. What has been delivered of a sequence of responses is a prefix of frames as
long as nothing is delivered after a response that has been cut short.
-/

namespace YaskawaComms.Protocol

/-- One call of `send`, with the number of bytes delivered. -/
structure Sent where
  buffer : List UInt8
  count : Nat

namespace Sent

def bytes (s : Sent) : List UInt8 := s.buffer.take s.count

/-- Everything has been delivered. -/
def Whole (s : Sent) : Prop := s.bytes = s.buffer

instance (s : Sent) : Decidable s.Whole := inferInstanceAs (Decidable (_ = _))

theorem bytes_prefix (s : Sent) : s.bytes <+: s.buffer := List.take_prefix _ _

end Sent

/-- A response as far as it has been sent. -/
structure Attempt where
  header : Sent
  payload : Option Sent

/-- A header with the payload that it announces. -/
structure ResponseFrame where
  header : ProtocolHeader
  payload : List UInt8
  length : payload.length = header.payloadLength.toNat

def ResponseFrame.bytes (f : ResponseFrame) : List UInt8 := f.header.bytes ++ f.payload

namespace Attempt

/-- The length of the payload, as the header that is sent announces it. -/
def announced (a : Attempt) : Nat := (ProtocolHeader.ofBytes a.header.buffer).payloadLength.toNat

/-- The payload is to be sent next. -/
def awaits (a : Attempt) : Bool := a.payload.isNone && decide (a.announced ≠ 0)

def bytes (a : Attempt) : List UInt8 := a.header.bytes ++ (a.payload.map Sent.bytes).getD []

/-- Everything that has been sent has been delivered. -/
def Whole (a : Attempt) : Prop := a.header.Whole ∧ ∀ p, a.payload = some p → p.Whole

/-- Some of the response has been delivered, but not all that has been sent. -/
def CutShort (a : Attempt) : Prop := a.bytes ≠ [] ∧ ¬ a.Whole

/-- The frame that the response makes when it is sent in full. -/
def CompletedBy (a : Attempt) (f : ResponseFrame) : Prop :=
  f.header.bytes = a.header.buffer ∧ ∀ p, a.payload = some p → f.payload = p.buffer

instance (a : Attempt) : Decidable a.Whole :=
  match h : a.payload with
  | none => decidable_of_iff a.header.Whole
      ⟨fun hwhole => ⟨hwhole, fun p hp => by rw [h] at hp; cases hp⟩, And.left⟩
  | some p => decidable_of_iff (a.header.Whole ∧ p.Whole)
      ⟨fun hwhole => ⟨hwhole.1, fun q hq => by rw [h] at hq; cases hq; exact hwhole.2⟩,
        fun hwhole => ⟨hwhole.1, hwhole.2 p h⟩⟩

end Attempt

/-- The responses after one more call of `send`. -/
def sendNext (s : Sent) : List Attempt → List Attempt
  | [] => [⟨s, none⟩]
  | a :: earlier => if a.awaits then { a with payload := some s } :: earlier else ⟨s, none⟩ :: a :: earlier

theorem sendNext_header {a : Attempt} (h : a.awaits = false) (s : Sent) (earlier : List Attempt) :
    sendNext s (a :: earlier) = ⟨s, none⟩ :: a :: earlier :=
  if_neg (Bool.eq_false_iff.mp h)

theorem sendNext_payload {a : Attempt} (h : a.awaits = true) (s : Sent) (earlier : List Attempt) :
    sendNext s (a :: earlier) = { a with payload := some s } :: earlier :=
  if_pos h

/-- What has been delivered, in order. -/
def delivered : List Attempt → List UInt8
  | [] => []
  | a :: earlier => delivered earlier ++ a.bytes

/-- The responses of which something has been delivered, in order. -/
def touched (attempts : List Attempt) : List Attempt :=
  (attempts.filter fun a => a.bytes ≠ []).reverse

/-- What is delivered is a prefix of complete frames, which are the responses that have been sent. -/
def Framed (attempts : List Attempt) : Prop :=
  ∃ frames : List ResponseFrame, List.Forall₂ Attempt.CompletedBy (touched attempts) frames ∧
    delivered attempts <+: (frames.map ResponseFrame.bytes).flatten

/-- Nothing is delivered after a response that has been cut short. -/
def StopsWhenCut (attempts : List Attempt) : Prop :=
  ∀ later a earlier, attempts = later ++ a :: earlier → a.CutShort → ∀ b ∈ later, b.bytes = []

/-- The next call of `send` may deliver something: each earlier response has been delivered in whole
or not at all, and so has the header of this response, if it is sent already, in whole. -/
def MayDeliver : List Attempt → Prop
  | [] => True
  | a :: earlier => (a.Whole ∨ (a.awaits = false ∧ a.bytes = [])) ∧ ∀ b ∈ earlier, b.Whole ∨ b.bytes = []

instance (attempts : List Attempt) : Decidable (MayDeliver attempts) :=
  match attempts with
  | [] => isTrue trivial
  | _ :: _ => inferInstanceAs (Decidable (_ ∧ _))

/-- The header whose payload is to be sent next. -/
def owed : List Attempt → Option ProtocolHeader
  | a :: _ => if a.awaits then some (.ofBytes a.header.buffer) else none
  | [] => none

/-- The sends have the sizes of a response. -/
def Attempt.Sized (a : Attempt) : Prop :=
  ∃ header : ProtocolHeader, a.header.buffer = header.bytes ∧
    ∀ p, a.payload = some p → p.buffer.length = header.payloadLength.toNat

/-- Nothing of the payload is delivered unless the header has been, in whole. -/
def Attempt.Ordered (a : Attempt) : Prop :=
  ∀ p, a.payload = some p → p.bytes ≠ [] → a.header.Whole

/-- Responses that have been sent one after the other, with nothing delivered after a cut. -/
def Regular : List Attempt → Prop
  | [] => True
  | a :: earlier => Regular earlier ∧ (∀ b ∈ earlier, b.awaits = false) ∧ a.Sized ∧
      (a.bytes = [] ∨ (a.Ordered ∧ ∀ b ∈ earlier, b.Whole ∨ b.bytes = []))

section Regular

variable {a : Attempt} {attempts : List Attempt} {s : Sent}

theorem Attempt.Sized.announced {header : ProtocolHeader} (h : a.header.buffer = header.bytes) :
    a.announced = header.payloadLength.toNat := by
  rw [Attempt.announced, h, ProtocolHeader.ofBytes_bytes]

theorem Attempt.Sized.frame (h : a.Sized) (hwhole : a.Whole) (hsent : a.awaits = false) :
    ∃ f : ResponseFrame, a.CompletedBy f ∧ a.bytes = f.bytes := by
  obtain ⟨header, hheader, hpayload⟩ := h
  cases hcase : a.payload with
  | none =>
      have hzero : a.announced = 0 := by simpa [awaits, hcase] using hsent
      rw [Attempt.Sized.announced hheader] at hzero
      refine ⟨⟨header, [], hzero.symm⟩, ⟨hheader.symm, ?_⟩, ?_⟩
      · rw [hcase]
        exact nofun
      · rw [bytes, hcase, hwhole.1, hheader]
        rfl
  | some p =>
      refine ⟨⟨header, p.buffer, hpayload p hcase⟩, ⟨hheader.symm, ?_⟩, ?_⟩
      · rw [hcase]
        rintro _ ⟨⟩
        rfl
      · rw [bytes, hcase, hwhole.1, hheader, Option.map_some, hwhole.2 p hcase]
        rfl

theorem Attempt.Sized.part (h : a.Sized) (hordered : a.Ordered) :
    ∃ f : ResponseFrame, a.CompletedBy f ∧ a.bytes <+: f.bytes := by
  obtain ⟨header, hheader, hpayload⟩ := h
  cases hcase : a.payload with
  | none =>
      refine ⟨⟨header, List.replicate header.payloadLength.toNat 0, List.length_replicate⟩,
        ⟨hheader.symm, ?_⟩, ?_⟩
      · rw [hcase]
        exact nofun
      · rw [bytes, hcase]
        show a.header.bytes ++ [] <+: header.bytes ++ _
        rw [List.append_nil, ← hheader]
        exact a.header.bytes_prefix.trans (List.prefix_append _ _)
  | some p =>
      refine ⟨⟨header, p.buffer, hpayload p hcase⟩, ⟨hheader.symm, ?_⟩, ?_⟩
      · rw [hcase]
        rintro _ ⟨⟩
        rfl
      · rw [bytes, hcase]
        show a.header.bytes ++ p.bytes <+: header.bytes ++ p.buffer
        by_cases hempty : p.bytes = []
        · rw [hempty, List.append_nil, ← hheader]
          exact a.header.bytes_prefix.trans (List.prefix_append _ _)
        · rw [hordered p hcase hempty, hheader]
          exact (List.prefix_append_right_inj _).mpr p.bytes_prefix

theorem touched_cons : touched (a :: attempts) =
    touched attempts ++ if a.bytes = [] then [] else [a] := by
  unfold touched
  by_cases h : a.bytes = []
  · simp [h]
  · simp [h]

theorem Regular.frames (h : Regular attempts) (hsent : ∀ b ∈ attempts, b.awaits = false)
    (hwhole : ∀ b ∈ attempts, b.Whole ∨ b.bytes = []) :
    ∃ frames : List ResponseFrame, List.Forall₂ Attempt.CompletedBy (touched attempts) frames ∧
      delivered attempts = (frames.map ResponseFrame.bytes).flatten := by
  induction attempts with
  | nil => exact ⟨[], .nil, rfl⟩
  | cons a earlier ih =>
      obtain ⟨hearlier, -, hsized, -⟩ := h
      obtain ⟨frames, hframes, hdelivered⟩ := ih hearlier
        (fun b hb => hsent b (List.mem_cons_of_mem _ hb)) fun b hb => hwhole b (List.mem_cons_of_mem _ hb)
      rw [touched_cons]
      by_cases hempty : a.bytes = []
      · refine ⟨frames, ?_, ?_⟩
        · rwa [if_pos hempty, List.append_nil]
        · rw [delivered, hempty, List.append_nil, hdelivered]
      · obtain ⟨f, hcompleted, hbytes⟩ := hsized.frame
          ((hwhole a List.mem_cons_self).resolve_right hempty) (hsent a List.mem_cons_self)
        refine ⟨frames ++ [f], ?_, ?_⟩
        · rw [if_neg hempty]
          exact List.rel_append hframes (.cons hcompleted .nil)
        · rw [delivered, hdelivered, hbytes]
          simp

theorem Regular.framed (h : Regular attempts) : Framed attempts := by
  induction attempts with
  | nil => exact ⟨[], .nil, List.prefix_refl _⟩
  | cons a earlier ih =>
      obtain ⟨hearlier, hsent, hsized, hdelivers⟩ := h
      unfold Framed
      rw [touched_cons, delivered]
      by_cases hempty : a.bytes = []
      · rw [if_pos hempty, List.append_nil, hempty, List.append_nil]
        exact ih hearlier
      · obtain ⟨hordered, hwhole⟩ := hdelivers.resolve_left hempty
        obtain ⟨frames, hframes, hdelivered⟩ := hearlier.frames hsent hwhole
        obtain ⟨f, hcompleted, hbytes⟩ := hsized.part hordered
        refine ⟨frames ++ [f], ?_, ?_⟩
        · rw [if_neg hempty]
          exact List.rel_append hframes (.cons hcompleted .nil)
        · rw [hdelivered, List.map_append, List.flatten_append]
          apply (List.prefix_append_right_inj _).mpr
          simpa using hbytes

theorem Regular.stopsWhenCut (h : Regular attempts) : StopsWhenCut attempts := by
  induction attempts with
  | nil =>
      intro later a earlier hsplit
      simp at hsplit
  | cons first rest ih =>
      rintro later a earlier hsplit hcut b hb
      obtain ⟨hrest, -, -, hdelivers⟩ := h
      cases later with
      | nil => cases hb
      | cons c later =>
          obtain ⟨rfl, rfl⟩ := List.cons_eq_cons.mp hsplit
          rcases List.mem_cons.mp hb with rfl | hb
          · rcases hdelivers with hempty | ⟨-, hwhole⟩
            · exact hempty
            · have ha := hwhole a (List.mem_append_right _ List.mem_cons_self)
              exact absurd ha (not_or.mpr ⟨hcut.2, hcut.1⟩)
          · exact ih hrest later a earlier rfl hcut b hb

/-- One more call of `send`, for the header of a new response or for the payload that is owed. -/
theorem Regular.sendNext (h : Regular attempts)
    (hheader : owed attempts = none → ∃ header : ProtocolHeader, s.buffer = header.bytes)
    (hpayload : ∀ header, owed attempts = some header → s.buffer.length = header.payloadLength.toNat)
    (hdelivers : s.bytes ≠ [] → MayDeliver attempts) : Regular (sendNext s attempts) := by
  have hnew : owed attempts = none → (⟨s, none⟩ : Attempt).Sized := by
    intro hnone
    obtain ⟨header, hbuffer⟩ := hheader hnone
    exact ⟨header, hbuffer, nofun⟩
  have hbytes : (⟨s, none⟩ : Attempt).bytes = s.bytes := List.append_nil _
  cases attempts with
  | nil => exact ⟨trivial, nofun, hnew rfl, Or.inr ⟨nofun, nofun⟩⟩
  | cons a earlier =>
      cases hawaits : a.awaits with
      | false =>
          rw [sendNext_header hawaits]
          have hsent : ∀ b ∈ a :: earlier, b.awaits = false := by
            intro b hb
            rcases List.mem_cons.mp hb with rfl | hb
            · exact hawaits
            · exact h.2.1 b hb
          refine ⟨h, hsent, hnew (by rw [owed, hawaits, if_neg Bool.false_ne_true]), ?_⟩
          by_cases hempty : s.bytes = []
          · exact Or.inl (hbytes.trans hempty)
          · obtain ⟨hfirst, hrest⟩ := hdelivers hempty
            refine Or.inr ⟨nofun, ?_⟩
            intro b hb
            rcases List.mem_cons.mp hb with rfl | hb
            · exact hfirst.imp_right And.right
            · exact hrest b hb
      | true =>
          rw [sendNext_payload hawaits]
          obtain ⟨hearlier, hsent, ⟨header, hbuffer, -⟩, hold⟩ := h
          have hnone : a.payload = none := by
            rw [Attempt.awaits, Bool.and_eq_true, Option.isNone_iff_eq_none] at hawaits
            exact hawaits.1
          have howed : owed (a :: earlier) = some header := by
            rw [owed, hawaits, if_pos rfl, hbuffer, ProtocolHeader.ofBytes_bytes]
          refine ⟨hearlier, hsent, ⟨header, hbuffer, ?_⟩, ?_⟩
          · rintro _ ⟨⟩
            exact hpayload header howed
          · by_cases hempty : s.bytes = []
            · apply hold.imp
              · intro hnothing
                have hbefore : a.header.bytes = [] := by simpa [Attempt.bytes, hnone] using hnothing
                simp [Attempt.bytes, hbefore, hempty]
              · rintro ⟨-, hwhole⟩
                refine ⟨?_, hwhole⟩
                rintro _ ⟨⟩ hsome
                exact absurd hempty hsome
            · obtain ⟨hfirst, hrest⟩ := hdelivers hempty
              have hwhole : a.Whole := by
                apply hfirst.resolve_right
                rintro ⟨hfalse, -⟩
                rw [hawaits] at hfalse
                cases hfalse
              exact Or.inr ⟨fun _ _ _ => hwhole.1, hrest⟩

theorem owed_sendNext : owed (sendNext s attempts) =
    if owed attempts = none ∧ (ProtocolHeader.ofBytes s.buffer).payloadLength.toNat ≠ 0 then
      some (.ofBytes s.buffer)
    else none := by
  have hnew : ∀ rest, owed (⟨s, none⟩ :: rest) =
      if (ProtocolHeader.ofBytes s.buffer).payloadLength.toNat ≠ 0 then some (.ofBytes s.buffer)
      else none := by
    intro rest
    by_cases hzero : (ProtocolHeader.ofBytes s.buffer).payloadLength.toNat = 0
    · simp [owed, Attempt.awaits, Attempt.announced, hzero]
    · simp [owed, Attempt.awaits, Attempt.announced, hzero]
  cases attempts with
  | nil =>
      rw [sendNext, hnew]
      simp only [show owed [] = none from rfl, true_and]
  | cons a earlier =>
      cases hawaits : a.awaits with
      | false =>
          have hnone : owed (a :: earlier) = none := by rw [owed, hawaits, if_neg Bool.false_ne_true]
          rw [sendNext_header hawaits, hnew, hnone]
          simp only [true_and]
      | true =>
          have hsome : owed (a :: earlier) ≠ none := by
            rw [owed, hawaits, if_pos rfl]
            exact Option.some_ne_none _
          rw [sendNext_payload hawaits, if_neg fun h => hsome h.1]
          rfl

end Regular

end YaskawaComms.Protocol
