import PiksiBuildroot.Lib.Machine

/-!
# The buffer of staged replies

`stage_output_sbp` packs a reply with `sbp_send_message`, which hands the frame over fragment by
fragment; `stage_packed_sbp_buffer` copies each fragment to the send buffer and sends the buffer
first if the fragment does not fit. What is in the buffer and what was sent form a bounded queue of
bytes (`queue_stagePackedSbpBuffer`). No byte is lost or repeated, but a fragment that does not fit
cuts its frame (`sent_frames_iff`, `sent_cut_frame`).
-/

namespace PiksiBuildroot.SbpFileio.SendBuffer

open Lib List Option

/-- Source: `SEND_BUFFER_SIZE`. -/
def sendBufferSize : Nat := 4096

/-- A reply: its type and the payload of at most 255 bytes. -/
structure Reply where
  msgType : UInt8
  payload : List UInt8
  payload_le : payload.length ≤ 255

/-- The send buffer of one pubsub index, the messages passed to `pk_endpoint_send` so far, and the
replies staged so far. Source: the fields of `pubsub_ctx_t`. -/
structure State where
  sendBuffer : List UInt8
  sendBufferOffset : Nat
  sendBufferRemaining : Nat
  sent : List (List UInt8)
  staged : List Reply

/-- Source: `flush_output_sbp`, with the send succeeding. -/
def flushOutputSbp (s : State) : State := if s.sendBufferOffset = 0 then s
  else
    { s with
      sent := s.sent ++ [s.sendBuffer.take s.sendBufferOffset]
      sendBufferRemaining := sendBufferSize
      sendBufferOffset := 0 }

/-- The `memcpy` to the send buffer and what follows it. -/
def copyToSendBuffer (s : State) (buff : List UInt8) (len : Nat) : State := { s with
    sendBuffer := s.sendBuffer.take s.sendBufferOffset ++ buff.take len ++
      s.sendBuffer.drop (s.sendBufferOffset + len)
    sendBufferRemaining := s.sendBufferRemaining - len
    sendBufferOffset := s.sendBufferOffset + len }

/-- Source: `stage_packed_sbp_buffer`, the new state and the length returned. -/
def stagePackedSbpBuffer (s : State) (buff : List UInt8) : State × Nat := let n := buff.length
  let len := min s.sendBufferRemaining n
  if len ≠ n then
    let s := flushOutputSbp s
    let len := min s.sendBufferRemaining n
    (copyToSendBuffer s buff len, len)
  else (copyToSendBuffer s buff len, len)

section frames

-- the sender id of the device, and the checksum that libsbp computes over the bytes after the
-- preamble
variable (senderId : UInt16) (crc16 : List UInt8 → UInt16)

/-- The two bytes of a 16-bit field, low byte first. -/
def littleEndian (v : UInt16) : List UInt8 := [v.toUInt8, (v >>> 8).toUInt8]

/-- What is in front of the payload, after the preamble. -/
def headerFragments (r : Reply) : List (List UInt8) :=
  [[r.msgType, 0], littleEndian senderId, [.ofNat r.payload.length]]

/-- The fragments of a frame, in the order in which `sbp_send_message` writes them. -/
def fragments (r : Reply) : List (List UInt8) :=
  [[0x55]] ++ headerFragments senderId r ++ (if r.payload = [] then [] else [r.payload]) ++
    [littleEndian (crc16 ((headerFragments senderId r).flatten ++ r.payload))]

/-- The frame of a reply. -/
def frame (r : Reply) : List UInt8 := (fragments senderId crc16 r).flatten

/-- Source: `stage_output_sbp`. -/
@[irreducible] def stageOutputSbp (s : State) (r : Reply) : State :=
  let s := (fragments senderId crc16 r).foldl (fun s buff => (stagePackedSbpBuffer s buff).1) s
  { s with staged := s.staged ++ [r] }

/-- What the write thread does with the buffer. -/
inductive Action where
  | stage (r : Reply)
  | flush

/-- The buffer from its initialisation on. -/
def machine : Machine State Action where
  init :=
    { sendBuffer := List.replicate sendBufferSize 0, sendBufferOffset := 0,
      sendBufferRemaining := sendBufferSize, sent := [], staged := [] }
  step s
    | .stage r => some (stageOutputSbp senderId crc16 s r)
    | .flush => some (flushOutputSbp s)

end frames

/-! ### The queue of bytes -/

/-- The bytes that wait, at most `sendBufferSize`, and the messages sent. -/
structure Queue where
  content : List UInt8
  sent : List (List UInt8)

/-- Send what waits. -/
def Queue.flush (q : Queue) : Queue :=
  if q.content = [] then q else { content := [], sent := q.sent ++ [q.content] }

/-- Add bytes, after sending what waits if they do not fit. -/
def Queue.add (q : Queue) (buff : List UInt8) : Queue :=
  if q.content.length + buff.length ≤ sendBufferSize then { q with content := q.content ++ buff }
  else { content := q.flush.content ++ buff, sent := q.flush.sent }

/-- The queue that a state holds. -/
def State.queue (s : State) : Queue :=
  { content := s.sendBuffer.take s.sendBufferOffset, sent := s.sent }

/-- Offset and remaining length belong together. -/
structure State.Ok (s : State) : Prop where
  length_eq : s.sendBuffer.length = sendBufferSize
  sum_eq : s.sendBufferOffset + s.sendBufferRemaining = sendBufferSize

lemma State.Ok.length_content {s : State} (h : s.Ok) :
    s.queue.content.length = s.sendBufferOffset := by
  have hsum := h.sum_eq
  have hlength := h.length_eq
  simp only [State.queue, length_take]
  omega

lemma State.Ok.flush {s : State} (h : s.Ok) : (flushOutputSbp s).Ok := by
  unfold flushOutputSbp
  split
  · exact h
  · exact ⟨h.length_eq, Nat.zero_add _⟩

lemma State.Ok.queue_flush {s : State} (h : s.Ok) : (flushOutputSbp s).queue = s.queue.flush := by
  have hlength := h.length_content
  unfold flushOutputSbp Queue.flush
  by_cases hzero : s.sendBufferOffset = 0
  · have hnil : s.queue.content = [] := eq_nil_of_length_eq_zero (hlength.trans hzero)
    rw [if_pos hzero, if_pos hnil]
  · have hne : s.queue.content ≠ [] := by
      intro hnil
      rw [hnil] at hlength
      exact hzero hlength.symm
    rw [if_neg hzero, if_neg hne]
    rfl

variable {buff : List UInt8}

/-- Copied bytes go to the end of the buffer. -/
lemma State.Ok.copy {s : State} (h : s.Ok) (hfits : buff.length ≤ s.sendBufferRemaining) :
    (copyToSendBuffer s buff buff.length).Ok ∧ (copyToSendBuffer s buff buff.length).queue =
        { content := s.queue.content ++ buff, sent := s.sent } := by
  have hsum := h.sum_eq
  have hlength := h.length_eq
  have hcontent := h.length_content
  refine ⟨⟨?_, ?_⟩, ?_⟩
  · simp only [copyToSendBuffer, length_append, length_take, length_drop]
    omega
  · simp only [copyToSendBuffer]
    omega
  · simp only [State.queue, copyToSendBuffer, take_length] at hcontent ⊢
    rw [take_append_of_le_length (by rw [length_append]; omega),
      take_of_length_le (by rw [length_append]; omega)]

/-- A fragment is staged whole, and the queue takes it. -/
lemma State.Ok.stage {s : State} (h : s.Ok) (hbuff : buff.length ≤ sendBufferSize) :
    (stagePackedSbpBuffer s buff).2 = buff.length ∧ (stagePackedSbpBuffer s buff).1.Ok ∧
      (stagePackedSbpBuffer s buff).1.queue = s.queue.add buff := by
  have hsum := h.sum_eq
  have hcontent := h.length_content
  unfold stagePackedSbpBuffer Queue.add
  by_cases hfits : buff.length ≤ s.sendBufferRemaining
  · have hmin : min s.sendBufferRemaining buff.length = buff.length := Nat.min_eq_right hfits
    have hroom : s.queue.content.length + buff.length ≤ sendBufferSize := by omega
    simp only [hmin, ne_eq, not_true_eq_false, if_false, if_pos hroom]
    exact ⟨trivial, h.copy hfits⟩
  · have hmin : min s.sendBufferRemaining buff.length ≠ buff.length := by omega
    have hroom : ¬ s.queue.content.length + buff.length ≤ sendBufferSize := by omega
    have hempty : (flushOutputSbp s).sendBufferRemaining = sendBufferSize := by
      unfold flushOutputSbp
      split
      · omega
      · rfl
    have hmin' : min (flushOutputSbp s).sendBufferRemaining buff.length = buff.length := by
      omega
    have hcopy := h.flush.copy (hempty ▸ hbuff)
    simp only [ne_eq, hmin, not_false_eq_true, if_true, hmin', if_neg hroom]
    refine ⟨trivial, hcopy.1, ?_⟩
    rw [hcopy.2, ← h.queue_flush]
    rfl

/-! ### Fragments in the queue -/

/-- All the bytes that went into the queue. -/
def Queue.bytes (q : Queue) : List UInt8 := q.sent.flatten ++ q.content

lemma Queue.bytes_flush (q : Queue) : q.flush.bytes = q.bytes := by
  unfold flush
  split
  · rfl
  · simp [bytes]

lemma Queue.bytes_add (q : Queue) (buff : List UInt8) : (q.add buff).bytes = q.bytes ++ buff := by
  unfold add
  split
  · simp [bytes]
  · rw [← q.bytes_flush]
    simp [bytes]

/-- Add fragments one after the other. -/
def Queue.addAll (q : Queue) (frags : List (List UInt8)) : Queue := frags.foldl Queue.add q

lemma Queue.bytes_addAll (q : Queue) (frags : List (List UInt8)) :
    (q.addAll frags).bytes = q.bytes ++ frags.flatten := by
  induction frags generalizing q with
  | nil => simp [addAll]
  | cons f frags ih =>
    rw [flatten_cons, ← append_assoc, ← q.bytes_add f]
    exact ih (q.add f)

variable {frags : List (List UInt8)} {f : List UInt8}

lemma Queue.addAll_of_fits {q : Queue}
    (h : q.content.length + frags.flatten.length ≤ sendBufferSize) :
    q.addAll frags = { q with content := q.content ++ frags.flatten } := by
  induction frags generalizing q with
  | nil => simp [addAll]
  | cons f frags ih =>
    rw [flatten_cons, length_append] at h
    have hadd : q.add f = { q with content := q.content ++ f } := if_pos (by omega)
    have hrest : (q.add f).addAll frags =
        { q with content := q.content ++ f ++ frags.flatten } := by
      rw [hadd, ih (by rw [length_append]; omega)]
    rw [flatten_cons, ← append_assoc]
    exact hrest

/-- A fragment that does not fit follows a send of the content. -/
lemma Queue.add_of_not_fits {q : Queue} (hle : f.length ≤ sendBufferSize)
    (h : ¬ q.content.length + f.length ≤ sendBufferSize) :
    q.add f = { content := f, sent := q.sent ++ [q.content] } := by
  have hne : q.content ≠ [] := by
    intro hnil
    rw [hnil, length_nil] at h
    omega
  simp [add, flush, h, hne]

/-- If the fragments do not all fit, what fits before the first that does not is sent with the
content. -/
lemma Queue.addAll_of_not_fits {q : Queue} (hq : q.content.length ≤ sendBufferSize)
    (hle : frags.flatten.length ≤ sendBufferSize)
    (h : ¬ q.content.length + frags.flatten.length ≤ sendBufferSize) :
    ∃ before f after, frags = before ++ f :: after ∧
      q.content.length + before.flatten.length ≤ sendBufferSize ∧
      ¬ q.content.length + (before ++ [f]).flatten.length ≤ sendBufferSize ∧
      q.addAll frags =
        { content := (f :: after).flatten, sent := q.sent ++ [q.content ++ before.flatten] } := by
  induction frags generalizing q with
  | nil => exact absurd hq h
  | cons f frags ih =>
    rw [flatten_cons, length_append] at hle h
    by_cases hf : q.content.length + f.length ≤ sendBufferSize
    · have hadd : q.add f = { q with content := q.content ++ f } := if_pos hf
      have hlength : (q.add f).content.length = q.content.length + f.length := by
        rw [hadd, length_append]
      obtain ⟨before, g, after, rfl, hbefore, hg, heq⟩ :=
        ih (by omega : (q.add f).content.length ≤ sendBufferSize) (by omega) (by omega)
      refine ⟨f :: before, g, after, rfl, ?_, ?_, ?_⟩
      · rw [flatten_cons, length_append]
        omega
      · rw [cons_append, flatten_cons, length_append]
        omega
      · refine Eq.trans heq ?_
        simp [hadd]
    · have hadd := add_of_not_fits (by omega) hf
      refine ⟨[], f, frags, rfl, hq, ?_, ?_⟩
      · simpa using hf
      · have hrest : (q.add f).addAll frags =
            { content := f ++ frags.flatten, sent := q.sent ++ [q.content] } := by
          rw [hadd, addAll_of_fits (by simpa using hle)]
        rw [flatten_cons, flatten_nil, append_nil]
        exact hrest

/-! ### Frames -/

section frames

variable {senderId : UInt16} {crc16 : List UInt8 → UInt16}

lemma frame_eq (r : Reply) : frame senderId crc16 r =
      ([0x55, r.msgType, 0] ++ littleEndian senderId ++ [.ofNat r.payload.length]) ++ (r.payload ++
          littleEndian (crc16 ((headerFragments senderId r).flatten ++ r.payload))) := by
  by_cases h : r.payload = []
  · simp [frame, fragments, headerFragments, h]
  · simp [frame, fragments, headerFragments, h]

lemma length_frame (r : Reply) : (frame senderId crc16 r).length = 8 + r.payload.length := by
  rw [frame_eq]
  simp only [length_append, littleEndian, length_cons, length_nil]
  omega

/-- A byte string that is a concatenation of frames. -/
def IsFrames (senderId : UInt16) (crc16 : List UInt8 → UInt16) (b : List UInt8) : Prop :=
  ∃ rs : List Reply, b = rs.flatMap (frame senderId crc16)

/-- The sixth byte of a frame says how long it is. -/
lemma length_eq_of_append {r r' : Reply} {b b' : List UInt8}
    (h : frame senderId crc16 r ++ b = frame senderId crc16 r' ++ b') :
    r.payload.length = r'.payload.length := by
  have hbyte : ∀ (r : Reply) (b : List UInt8),
      (frame senderId crc16 r ++ b)[5]? = some (.ofNat r.payload.length) := by
    intro r b
    rfl
  have heq : UInt8.ofNat r.payload.length = UInt8.ofNat r'.payload.length := by
    have hsome := hbyte r b
    rw [h, hbyte r' b'] at hsome
    exact (some.inj hsome).symm
  have hnat := congrArg UInt8.toNat heq
  have hr := r.payload_le
  have hr' := r'.payload_le
  simp only [UInt8.toNat_ofNat'] at hnat
  omega

variable {rs : List Reply} {b : List UInt8}

lemma IsFrames.of_append (h : IsFrames senderId crc16 (rs.flatMap (frame senderId crc16) ++ b)) :
    IsFrames senderId crc16 b := by
  induction rs with
  | nil => exact h
  | cons r rs ih =>
    obtain ⟨rs', hrs'⟩ := h
    rw [flatMap_cons, append_assoc] at hrs'
    cases rs' with
    | nil =>
      have hlength := congrArg List.length hrs'
      rw [length_append, length_frame, flatMap_nil, length_nil] at hlength
      omega
    | cons r' rs' =>
      have hpayload := length_eq_of_append hrs'
      have hframe : (frame senderId crc16 r).length = (frame senderId crc16 r').length := by
        rw [length_frame, length_frame, hpayload]
      exact ih ⟨rs', (append_inj hrs' hframe).2⟩

/-- A part of a frame at the end of frames makes no frame. -/
lemma not_isFrames_of_cut {r : Reply} {b rest : List UInt8}
    (hframe : frame senderId crc16 r = b ++ rest) (hb : b ≠ []) (hrest : rest ≠ []) :
    ¬ IsFrames senderId crc16 (rs.flatMap (frame senderId crc16) ++ b) := by
  intro h
  obtain ⟨rs', hrs'⟩ := h.of_append
  have hlength := congrArg List.length hframe
  have hpos := length_pos_iff.mpr hrest
  rw [length_frame, length_append] at hlength
  cases rs' with
  | nil => exact hb hrs'
  | cons r' rs' =>
    rw [flatMap_cons] at hrs'
    have heq : frame senderId crc16 r ++ [] =
        frame senderId crc16 r' ++ (rs'.flatMap (frame senderId crc16) ++ rest) := by
      rw [append_nil, hframe, hrs', append_assoc]
    have hpayload := length_eq_of_append heq
    have hlength' := congrArg List.length hrs'
    rw [length_append, length_frame] at hlength'
    omega

lemma IsFrames.append_frame (h : IsFrames senderId crc16 b) (r : Reply) :
    IsFrames senderId crc16 (b ++ frame senderId crc16 r) := by
  obtain ⟨rs, rfl⟩ := h
  exact ⟨rs ++ [r], by simp⟩

/-! ### Staging a reply -/

lemma ne_nil_of_mem_fragments {r : Reply} (h : f ∈ fragments senderId crc16 r) : f ≠ [] := by
  simp only [fragments, headerFragments, littleEndian, mem_append, mem_cons,
    not_mem_nil, or_false, mem_ite_nil_left] at h
  rcases h with ((rfl | rfl | rfl | rfl) | ⟨hne, rfl⟩) | rfl
  case inl.inr => exact hne
  all_goals exact cons_ne_nil _ _

/-- A frame fits the empty buffer. -/
lemma length_frame_le (r : Reply) : (frame senderId crc16 r).length ≤ sendBufferSize := by
  have hpayload := r.payload_le
  rw [length_frame]
  unfold sendBufferSize
  omega

lemma length_le_of_mem_fragments {r : Reply} (h : f ∈ fragments senderId crc16 r) :
    f.length ≤ sendBufferSize :=
  Nat.le_trans (sublist_flatten_of_mem h).length_le (length_frame_le r)

/-- Staging fragments keeps offset and remaining length together, and the queue takes them all. -/
lemma State.Ok.stageAll {s : State} (h : s.Ok) (hle : ∀ f ∈ frags, f.length ≤ sendBufferSize) :
    (frags.foldl (fun s buff => (stagePackedSbpBuffer s buff).1) s).Ok ∧
      (frags.foldl (fun s buff => (stagePackedSbpBuffer s buff).1) s).queue =
        s.queue.addAll frags := by
  induction frags generalizing s with
  | nil => exact ⟨h, rfl⟩
  | cons f frags ih =>
    obtain ⟨-, hok, hqueue⟩ := h.stage (hle f mem_cons_self)
    have hrest := ih hok (fun g hg => hle g (mem_cons_of_mem f hg))
    rw [hqueue] at hrest
    exact hrest

lemma staged_foldl (frags : List (List UInt8)) (s : State) :
    (frags.foldl (fun s buff => (stagePackedSbpBuffer s buff).1) s).staged = s.staged := by
  induction frags generalizing s with
  | nil => rfl
  | cons f frags ih =>
    rw [foldl_cons, ih]
    unfold stagePackedSbpBuffer flushOutputSbp copyToSendBuffer
    grind

/-- What `stage_output_sbp` does to the queue. -/
lemma State.Ok.stageOutput {s : State} (h : s.Ok) (r : Reply) :
    (stageOutputSbp senderId crc16 s r).Ok ∧
      (stageOutputSbp senderId crc16 s r).queue = s.queue.addAll (fragments senderId crc16 r) ∧
      (stageOutputSbp senderId crc16 s r).staged = s.staged ++ [r] := by
  have hstaged := staged_foldl (fragments senderId crc16 r) s
  obtain ⟨hok, hqueue⟩ :=
    h.stageAll (fun f (hf : f ∈ fragments senderId crc16 r) => length_le_of_mem_fragments hf)
  unfold stageOutputSbp
  generalize (fragments senderId crc16 r).foldl _ s = t at hstaged hok hqueue ⊢
  exact ⟨⟨hok.length_eq, hok.sum_eq⟩, hqueue, congrArg (· ++ [r]) hstaged⟩

/-- The reply finds the buffer full or with room for its frame. -/
def Aligned (s : State) : Action → Prop
  | .stage r => s.sendBufferRemaining = 0 ∨ 8 + r.payload.length ≤ s.sendBufferRemaining
  | .flush => True

instance (s : State) (a : Action) : Decidable (Aligned s a) := by
  unfold Aligned
  cases a <;> infer_instance

/-- Whole frames wait and whole frames were sent. -/
structure Queue.Whole (senderId : UInt16) (crc16 : List UInt8 → UInt16) (q : Queue) : Prop where
  content : IsFrames senderId crc16 q.content
  sent : ∀ b ∈ q.sent, IsFrames senderId crc16 b

lemma Queue.Whole.flush {q : Queue} (h : q.Whole senderId crc16) :
    q.flush.Whole senderId crc16 := by
  unfold Queue.flush
  split
  · exact h
  · refine ⟨⟨[], rfl⟩, ?_⟩
    intro b hb
    rcases mem_append.mp hb with hb | hb
    · exact h.sent b hb
    · rw [mem_singleton.mp hb]
      exact h.content

/-- A reply that fits, or that finds the buffer full, is not cut. -/
lemma Queue.Whole.addAll {q : Queue} (h : q.Whole senderId crc16)
    (hq : q.content.length ≤ sendBufferSize) {r : Reply}
    (haligned : q.content.length = sendBufferSize ∨
      q.content.length + (frame senderId crc16 r).length ≤ sendBufferSize) :
    (q.addAll (fragments senderId crc16 r)).Whole senderId crc16 := by
  by_cases hfits : q.content.length + (frame senderId crc16 r).length ≤ sendBufferSize
  · rw [Queue.addAll_of_fits hfits]
    exact ⟨h.content.append_frame r, h.sent⟩
  · obtain ⟨before, f, after, hfrags, hbefore, -, heq⟩ :=
      Queue.addAll_of_not_fits hq (length_frame_le r) hfits
    -- the buffer is full, so the first fragment is the one that does not fit
    have hnil : before = [] := by
      rcases before with _ | ⟨g, before⟩
      · rfl
      · have hg : g ∈ fragments senderId crc16 r := by
          rw [hfrags]
          exact mem_cons_self
        have hpos := length_pos_iff.mpr (ne_nil_of_mem_fragments hg)
        rw [flatten_cons, length_append] at hbefore
        omega
    subst hnil
    rw [nil_append] at hfrags
    rw [heq, flatten_nil, append_nil, ← hfrags]
    refine ⟨⟨[r], by simp [frame]⟩, ?_⟩
    intro b hb
    rcases mem_append.mp hb with hb | hb
    · exact h.sent b hb
    · rw [mem_singleton.mp hb]
      exact h.content

/-- Any other reply is cut: the message sent ends in a part of its frame. -/
lemma Queue.Whole.cut {q : Queue} (h : q.Whole senderId crc16)
    (hq : q.content.length < sendBufferSize) {r : Reply}
    (hfits : ¬ q.content.length + (frame senderId crc16 r).length ≤ sendBufferSize) :
    ∃ b ∈ (q.addAll (fragments senderId crc16 r)).sent, ¬ IsFrames senderId crc16 b := by
  obtain ⟨before, f, after, hfrags, -, hf, heq⟩ :=
    Queue.addAll_of_not_fits (Nat.le_of_lt hq) (length_frame_le r) hfits
  have hfne : f ≠ [] := by
    apply ne_nil_of_mem_fragments
    rw [hfrags]
    exact mem_append_right before mem_cons_self
  -- the first fragment is the preamble, which fits
  have hbefore : before.flatten ≠ [] := by
    rcases before with _ | ⟨g, before⟩
    · have hfirst : f = [0x55] := (cons.inj hfrags).1.symm
      rw [hfirst] at hf
      simp only [nil_append, flatten_cons, flatten_nil, append_nil, length_singleton] at hf
      omega
    · have hg : g ≠ [] := by
        apply ne_nil_of_mem_fragments
        rw [hfrags]
        exact mem_cons_self
      intro hnil
      rw [flatten_cons, append_eq_nil_iff] at hnil
      exact hg hnil.1
  obtain ⟨rs, hrs⟩ := h.content
  refine ⟨q.content ++ before.flatten, ?_, ?_⟩
  · rw [heq]
    exact mem_append_right _ (mem_singleton.mpr rfl)
  · have hframe : frame senderId crc16 r = before.flatten ++ (f :: after).flatten := by
      rw [frame, hfrags, flatten_append]
    have hrest : (f :: after).flatten ≠ [] := by
      intro hnil
      rw [flatten_cons, append_eq_nil_iff] at hnil
      exact hfne hnil.1
    exact hrs ▸ not_isFrames_of_cut hframe hbefore hrest

/-! ### Runs -/

/-- The bytes of the queue are the frames staged, and nothing that was sent is taken back. -/
structure Kept (senderId : UInt16) (crc16 : List UInt8 → UInt16) (s : State) : Prop where
  ok : s.Ok
  bytes_eq : s.queue.bytes = s.staged.flatMap (frame senderId crc16)

lemma Kept.flush {s : State} (h : Kept senderId crc16 s) :
    Kept senderId crc16 (flushOutputSbp s) := by
  have hstaged : (flushOutputSbp s).staged = s.staged := by
    unfold flushOutputSbp
    split <;> rfl
  refine ⟨h.ok.flush, ?_⟩
  rw [h.ok.queue_flush, Queue.bytes_flush, hstaged]
  exact h.bytes_eq

lemma Kept.stage {s : State} (h : Kept senderId crc16 s) (r : Reply) :
    Kept senderId crc16 (stageOutputSbp senderId crc16 s r) := by
  obtain ⟨hok, hqueue, hstaged⟩ := @State.Ok.stageOutput senderId crc16 s h.ok r
  refine ⟨hok, ?_⟩
  rw [hqueue, Queue.bytes_addAll, hstaged, h.bytes_eq, flatMap_append, flatMap_singleton]
  rfl

variable {a : Action} {acts : List Action} {s s' : State}

lemma Kept.step (h : Kept senderId crc16 s) (hstep : (machine senderId crc16).step s a = some s') :
    Kept senderId crc16 s' := by
  cases a with
  | stage r => exact some.inj hstep ▸ h.stage r
  | flush => exact some.inj hstep ▸ h.flush

lemma kept_init : Kept senderId crc16 (machine senderId crc16).init :=
  ⟨⟨length_replicate, Nat.zero_add _⟩, rfl⟩

lemma Queue.sent_subset_add (q : Queue) (buff : List UInt8) : q.sent ⊆ (q.add buff).sent := by
  unfold Queue.add Queue.flush
  split
  · exact List.Subset.refl _
  · split
    · exact List.Subset.refl _
    · exact subset_append_left _ _

lemma Queue.sent_subset_addAll (q : Queue) (frags : List (List UInt8)) :
    q.sent ⊆ (q.addAll frags).sent := by
  induction frags generalizing q with
  | nil => exact List.Subset.refl _
  | cons f frags ih => exact List.Subset.trans (q.sent_subset_add f) (ih (q.add f))

lemma sent_subset_step (h : s.Ok) (hstep : (machine senderId crc16).step s a = some s') :
    s.sent ⊆ s'.sent := by
  cases a with
  | stage r =>
    cases hstep
    have hqueue := (@State.Ok.stageOutput senderId crc16 s h r).2.1
    have hsub := s.queue.sent_subset_addAll (fragments senderId crc16 r)
    rw [← hqueue] at hsub
    exact hsub
  | flush =>
    cases hstep
    unfold flushOutputSbp
    split
    · exact List.Subset.refl _
    · exact subset_append_left _ _

lemma whole_step (h : s.Ok) (hwhole : s.queue.Whole senderId crc16) (haligned : Aligned s a)
    (hstep : (machine senderId crc16).step s a = some s') : s'.queue.Whole senderId crc16 := by
  have hsum := h.sum_eq
  have hlength := h.length_content
  cases a with
  | stage r =>
    cases hstep
    have hqueue := (@State.Ok.stageOutput senderId crc16 s h r).2.1
    refine hqueue ▸ hwhole.addAll (by omega) ?_
    unfold Aligned at haligned
    rw [length_frame]
    omega
  | flush =>
    cases hstep
    exact h.queue_flush ▸ hwhole.flush

lemma cut_step (h : s.Ok) (hwhole : s.queue.Whole senderId crc16) (haligned : ¬ Aligned s a)
    (hstep : (machine senderId crc16).step s a = some s') :
    ∃ b ∈ s'.sent, ¬ IsFrames senderId crc16 b := by
  have hsum := h.sum_eq
  have hlength := h.length_content
  cases a with
  | stage r =>
    cases hstep
    have hqueue := (@State.Ok.stageOutput senderId crc16 s h r).2.1
    unfold Aligned at haligned
    have hcut := @Queue.Whole.cut senderId crc16 s.queue hwhole (by omega) r
      (by rw [length_frame]; omega)
    rw [← hqueue] at hcut
    exact hcut
  | flush => exact absurd trivial haligned

lemma sent_subset_foldlM (h : Kept senderId crc16 s)
    (hrun : acts.foldlM (machine senderId crc16).step s = some s') : s.sent ⊆ s'.sent := by
  induction acts generalizing s with
  | nil => exact some.inj hrun ▸ List.Subset.refl _
  | cons a acts ih =>
    rw [foldlM_cons, bind_eq_bind, bind_eq_some_iff] at hrun
    obtain ⟨s₁, hstep, hrest⟩ := hrun
    exact List.Subset.trans (sent_subset_step h.ok hstep) (ih (h.step hstep) hrest)

/-- From a state with whole frames only, whole frames are sent exactly if every step is aligned. -/
lemma whole_foldlM_iff (h : Kept senderId crc16 s) (hwhole : s.queue.Whole senderId crc16)
    (hrun : acts.foldlM (machine senderId crc16).step s = some s') :
    (∀ b ∈ s'.sent, IsFrames senderId crc16 b) ↔
      (acts.foldlM ((machine senderId crc16).restrict Aligned).step s).isSome := by
  induction acts generalizing s with
  | nil =>
    cases hrun
    exact ⟨fun _ => rfl, fun _ => hwhole.sent⟩
  | cons a acts ih =>
    rw [foldlM_cons, bind_eq_bind, bind_eq_some_iff] at hrun
    obtain ⟨s₁, hstep, hrest⟩ := hrun
    rw [foldlM_cons, bind_eq_bind]
    by_cases haligned : Aligned s a
    · rw [Machine.restrict_step_eq_some.mpr ⟨haligned, hstep⟩, bind_some]
      exact ih (h.step hstep) (whole_step h.ok hwhole haligned hstep) hrest
    · have hnone : ((machine senderId crc16).restrict Aligned).step s a = none := if_neg haligned
      obtain ⟨b, hb, hcut⟩ := cut_step h.ok hwhole haligned hstep
      rw [hnone, bind_none]
      refine ⟨fun hall => ?_, fun hfalse => absurd hfalse Bool.false_ne_true⟩
      exact absurd (hall b (sent_subset_foldlM (h.step hstep) hrest hb)) hcut

lemma whole_init : (machine senderId crc16).init.queue.Whole senderId crc16 :=
  ⟨⟨[], rfl⟩, fun _ hb => absurd hb not_mem_nil⟩

lemma kept_run {s : State} (hrun : (machine senderId crc16).run acts = some s) :
    Kept senderId crc16 s :=
  @Machine.Reaches.invariant _ _ _ (Kept senderId crc16) kept_init (fun _ _ _ => Kept.step) s
    (Machine.reaches_of_run hrun)

/-- The bytes sent and waiting are the frames staged, in order, the offset and the remaining length
make up the buffer, and every message sent is a concatenation of frames exactly if every reply found
the buffer full or with room for its frame. -/
theorem sent_frames_iff (senderId : UInt16) (crc16 : List UInt8 → UInt16) {acts : List Action}
    {s : State} (hrun : (machine senderId crc16).run acts = some s) :
    s.sent.flatten ++ s.sendBuffer.take s.sendBufferOffset =
        s.staged.flatMap (frame senderId crc16) ∧
      s.sendBufferOffset + s.sendBufferRemaining = sendBufferSize ∧
      ((∀ b ∈ s.sent, IsFrames senderId crc16 b) ↔
        (((machine senderId crc16).restrict Aligned).run acts).isSome) := by
  have hkept := kept_run hrun
  exact ⟨hkept.bytes_eq, hkept.ok.sum_eq, whole_foldlM_iff kept_init whole_init hrun⟩

/-- Two replies in one message. -/
def twoReplies : List Action :=
  [.stage ⟨0xA8, [1, 2], by decide⟩, .stage ⟨0xA9, [4], by decide⟩, .flush]

/-- The sum of the bytes as a checksum. -/
def byteSum (bytes : List UInt8) : UInt16 := bytes.foldl (fun sum b => sum + b.toUInt16) 0

theorem sent_frames_iff_twoReplies : ∃ s, (machine 0x42 byteSum).run twoReplies = some s ∧
      s.sent = [[0x55, 0xA8, 0, 0x42, 0, 2, 1, 2, 239, 0, 0x55, 0xA9, 0, 0x42, 0, 1, 4, 240, 0]] ∧
      ∀ b ∈ s.sent, IsFrames 0x42 byteSum b := by
  have hrun : ((machine 0x42 byteSum).run twoReplies).map State.sent =
      some [[0x55, 0xA8, 0, 0x42, 0, 2, 1, 2, 239, 0, 0x55, 0xA9, 0, 0x42, 0, 1, 4, 240, 0]] := by
    decide +kernel
  obtain ⟨s, hs, hsent⟩ := map_eq_some_iff.mp hrun
  exact ⟨s, hs, hsent, (sent_frames_iff 0x42 byteSum hs).2.2.mpr (by decide +kernel)⟩

/-- A reply with the longest payload. -/
def longReply : Reply := ⟨0xA8, List.replicate 255 0, Nat.le_of_eq length_replicate⟩

/-- Fifteen replies of 263 bytes leave room for 151 bytes, in which the header of the next fits and
its payload does not. -/
theorem sent_cut_frame :
    ∃ s, (machine 0x42 (fun _ => 0)).run (List.replicate 16 (.stage longReply)) = some s ∧
      ∃ b ∈ s.sent, ¬ IsFrames 0x42 (fun _ => 0) b := by
  refine ⟨_, rfl, ?_⟩
  have hiff := @whole_foldlM_iff 0x42 (fun _ => 0) (List.replicate 16 (.stage longReply)) _ _
    kept_init whole_init rfl
  have hcut := mt hiff.mp (by decide +kernel)
  push Not at hcut
  exact hcut

end frames

end PiksiBuildroot.SbpFileio.SendBuffer
