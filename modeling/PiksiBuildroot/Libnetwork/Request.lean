import Mathlib.Algebra.Group.Nat.Defs
import PiksiBuildroot.Lib.Stdio

/-!
# Downloads with retries

`network_request` calls `curl_easy_perform` until an attempt is not aborted by a callback. What curl
does in an attempt is a list of events: bodies passed to the write callback, calls of the progress
callback, and signals in between. A callback that asks for it ends the attempt. The counters are
reset for every attempt, but the descriptor stays where it is (`otaDownload_iff`).
-/

namespace PiksiBuildroot.Libnetwork

open Lib Stdio List Option

/-- The file of a download and the offset of its descriptor. -/
structure File where
  content : Bytes
  offset : Nat
  deriving DecidableEq

def File.write (file : File) (data : Bytes) : File where
  content := writeAt file.content file.offset data
  offset := file.offset + data.length

/-- What a download uses of the context. Source: `network_context_t`. -/
structure Context where
  file : File
  maxBytes : Nat
  curBytes : Nat
  bytesTransfered : Int
  byteMoveTime : Int
  shutdownSignaled : Bool
  cycleConnectionSignaled : Bool
  continuous : Bool
  deriving DecidableEq

/-- Source: `MAX_STALL_TIME_S`. -/
def maxStallTime : Int := 10

/-- Source: `network_reset_counters`. -/
def networkResetCounters (ctx : Context) (now : Int) : Context :=
  { ctx with curBytes := 0, bytesTransfered := 0, byteMoveTime := now }

/-- What `write` returns: a number of bytes, or an error that is `EINTR` or another one. -/
inductive WriteResult where
  | wrote (n : Nat)
  | interrupted
  | failed
  deriving DecidableEq

/-- What a call has come to: it has returned, has read beyond the buffer, or waits for the next
result. A count that `write` cannot return makes the results impossible. -/
inductive WriteState where
  | returned (ret : Nat)
  | outOfBounds
  | waiting
  | impossible
  deriving DecidableEq

/-- A call so far, with the bytes that were put on the descriptor. -/
structure WriteRun where
  state : WriteState
  ctx : Context
  written : Bytes
  deriving DecidableEq

/-- The counts that a `write` of `remaining` bytes returns. -/
def IsCount (n remaining : Nat) : Prop := n ≤ remaining ∧ (remaining = 0 ∨ 0 < n)

instance (n remaining : Nat) : Decidable (IsCount n remaining) :=
  inferInstanceAs (Decidable (_ ∧ _))

section callbacks

-- the width of `size_t`
variable (sizeBits : Nat)

/-- Source: `network_byte_limit`. -/
def networkByteLimit (ctx : Context) (incoming : Nat) : Bool :=
  if ctx.maxBytes = 2 ^ sizeBits - 1 then false
  else decide (ctx.maxBytes < (ctx.curBytes + incoming) % 2 ^ sizeBits)

/-- The loop of `network_download_write`, given what the calls of `write` return. -/
def downloadLoop (buf : Bytes) : List WriteResult → Nat → Nat → Context → Bytes → WriteRun
  | [], _, _, ctx, written => ⟨.waiting, ctx, written⟩
  | .interrupted :: results, remaining, offset, ctx, written =>
    downloadLoop buf results remaining offset ctx written
  | .failed :: results, remaining, offset, ctx, written =>
    -- the result -1 is added to the counter and subtracted from what remains
    let remaining := (remaining + 1) % 2 ^ sizeBits
    let ctx := { ctx with curBytes := (ctx.curBytes + (2 ^ sizeBits - 1)) % 2 ^ sizeBits }
    if remaining = 0 then ⟨.returned 0, ctx, written⟩
    else downloadLoop buf results remaining ((offset + remaining) % 2 ^ sizeBits) ctx written
  | .wrote n :: results, remaining, offset, ctx, written =>
    if ¬IsCount n remaining then ⟨.impossible, ctx, written⟩
    else if buf.length < offset + n then ⟨.outOfBounds, ctx, written⟩
    else
      let data := (buf.drop offset).take n
      let ctx := { ctx with
        file := ctx.file.write data
        curBytes := (ctx.curBytes + n) % 2 ^ sizeBits }
      if remaining - n = 0 then ⟨.returned n, ctx, written ++ data⟩
      else
        downloadLoop buf results (remaining - n) ((offset + (remaining - n)) % 2 ^ sizeBits) ctx
          (written ++ data)

/-- A call with the results of its writes. Source: `network_download_write`. -/
def downloadRun (ctx : Context) (buf : Bytes) (results : List WriteResult) : WriteRun :=
  if networkByteLimit sizeBits ctx buf.length then ⟨.returned 0, ctx, []⟩
  else downloadLoop sizeBits buf results buf.length 0 ctx []

/-- The number returned to curl and the context; there is no result if the call reads beyond the
buffer or does not end. Source: `network_download_write`. -/
def networkDownloadWrite (ctx : Context) (buf : Bytes) (results : List WriteResult) :
    Option (Nat × Context) :=
  match downloadRun sizeBits ctx buf results with
  | ⟨.returned ret, ctx, _⟩ => some (ret, ctx)
  | _ => none

/-- Whether to abort, and the context. Source: `network_progress_check`. -/
def networkProgressCheck (ctx : Context) (bytes now : Int) : Bool × Context :=
  if ctx.shutdownSignaled then (true, ctx)
  else if ctx.cycleConnectionSignaled then (true, { ctx with cycleConnectionSignaled := false })
  else if ctx.bytesTransfered = bytes then (decide (maxStallTime ≤ now - ctx.byteMoveTime), ctx)
  else (false, { ctx with bytesTransfered := bytes, byteMoveTime := now })

/-! ### Attempts -/

/-- What happens during an attempt: the two callbacks, and the signals for a new connection and for
the end. -/
inductive Event where
  | write (buf : Bytes) (results : List WriteResult)
  | progress (dlnow now : Int)
  | cycleConnection
  | shutdown
  deriving DecidableEq

/-- The results of `curl_easy_perform`. -/
inductive Code where
  | ok
  | writeError
  | abortedByCallback
  | failed (code : Nat)
  deriving DecidableEq

/-- The events of an attempt, how it ends if no callback ends it (`none` is success), and the time
after it. -/
structure Attempt where
  events : List Event
  error : Option Nat
  now : Int
  deriving DecidableEq

/-- The body that some events deliver. -/
def bodyOf (events : List Event) : Bytes := events.flatMap fun
    | .write buf _ => buf
    | _ => []

def Attempt.body (a : Attempt) : Bytes := bodyOf a.events

def signalCycle (ctx : Context) : Context := { ctx with cycleConnectionSignaled := true }

def signalShutdown (ctx : Context) : Context := { ctx with shutdownSignaled := true }

/-- After a callback has ended the attempt there are only signals. -/
def afterAbort : List Event → Context → Option Context
  | [], ctx => some ctx
  | .cycleConnection :: events, ctx => afterAbort events (signalCycle ctx)
  | .shutdown :: events, ctx => afterAbort events (signalShutdown ctx)
  | .write _ _ :: _, _ | .progress _ _ :: _, _ => none

/-- An attempt. There is no result for events that curl does not cause. -/
def perform (error : Option Nat) : List Event → Context → Option (Code × Context)
  | [], ctx => some (error.elim .ok .failed, ctx)
  | .write buf results :: events, ctx => do
    let (n, ctx) ← networkDownloadWrite sizeBits ctx buf results
    if n = buf.length then perform error events ctx
    else (afterAbort events ctx).map fun ctx => (.writeError, ctx)
  | .progress dlnow now :: events, ctx =>
    let (abort, ctx) := networkProgressCheck ctx dlnow now
    if abort then (afterAbort events ctx).map fun ctx => (.abortedByCallback, ctx)
    else perform error events ctx
  | .cycleConnection :: events, ctx => perform error events (signalCycle ctx)
  | .shutdown :: events, ctx => perform error events (signalShutdown ctx)

/-- The code and the context at the end, and the attempts that were not made. There is no result if
the attempts do not suffice. Source: `network_request`. -/
def networkRequest : List Attempt → Context → Option (Code × Context × List Attempt)
  | [], _ => none
  | a :: attempts, ctx => do
    let (code, ctx) ← perform sizeBits a.error a.events ctx
    if ctx.shutdownSignaled then some (code, ctx, attempts)
    else if code = .abortedByCallback ∨ ctx.continuous = true then
      networkRequest attempts (networkResetCounters ctx a.now)
    else some (code, ctx, attempts)

/-- A request for a context whose file was created empty. Source: `ota_download`, `ota_enquire`,
`network_setup`, `network_setup_download`. -/
def otaDownload (maxBytes : Nat) (cycleConnectionSignaled : Bool) (now : Int)
    (attempts : List Attempt) : Option (Code × Context × List Attempt) :=
  networkRequest sizeBits attempts
    { file := { content := [], offset := 0 }, maxBytes := maxBytes, curBytes := 0,
      bytesTransfered := 0, byteMoveTime := now, shutdownSignaled := false,
      cycleConnectionSignaled := cycleConnectionSignaled, continuous := false }

end callbacks

/-! ### What is written -/

/-- Every call of `write` writes all it is given; it may be interrupted before. -/
def Complete : Event → Prop
  | .write buf results => ∃ k, results = List.replicate k .interrupted ++ [.wrote buf.length]
  | _ => True

/-- The limit and a body together are less than `size_t` can hold. -/
def Fits (sizeBits maxBytes : Nat) : Event → Prop
  | .write buf _ => maxBytes + buf.length < 2 ^ sizeBits
  | _ => True

/-- The descriptor is at the end of the file, and the counter is within the limit. -/
structure Context.Ok (ctx : Context) : Prop where
  atEnd : ctx.file.offset = ctx.file.content.length
  limit : ctx.curBytes ≤ ctx.maxBytes

/-- One context comes from another by writing some bytes to the file. -/
structure Wrote (data : Bytes) (ctx ctx' : Context) : Prop where
  content : ctx'.file.content = ctx.file.content ++ data
  offset : ctx'.file.offset = ctx.file.offset + data.length
  curBytes : ctx'.curBytes = ctx.curBytes + data.length
  maxBytes : ctx'.maxBytes = ctx.maxBytes
  continuous : ctx'.continuous = ctx.continuous
  limit : ctx'.curBytes ≤ ctx.maxBytes

variable {ctx : Context} {ctx' : Context}

lemma Wrote.refl (h : ctx.Ok) : Wrote [] ctx ctx :=
  ⟨(append_nil _).symm, rfl, rfl, rfl, rfl, h.limit⟩

lemma Wrote.trans {data data' : Bytes} {ctx ctx' ctx'' : Context} (h : Wrote data ctx ctx')
    (h' : Wrote data' ctx' ctx'') : Wrote (data ++ data') ctx ctx'' where
  content := by rw [h'.content, h.content, append_assoc]
  offset := by rw [h'.offset, h.offset, length_append, Nat.add_assoc]
  curBytes := by rw [h'.curBytes, h.curBytes, length_append, Nat.add_assoc]
  maxBytes := h'.maxBytes.trans h.maxBytes
  continuous := h'.continuous.trans h.continuous
  limit := h.maxBytes ▸ h'.limit

variable {data : Bytes}

lemma Wrote.ok (h : Wrote data ctx ctx') (hok : ctx.Ok) : ctx'.Ok where
  atEnd := by rw [h.offset, h.content, length_append, hok.atEnd]
  limit := h.maxBytes.symm ▸ h.limit

/-- Only the flags and the counters of the progress are different. -/
lemma Wrote.of_fields (h : ctx.Ok) (hfile : ctx'.file = ctx.file)
    (hcur : ctx'.curBytes = ctx.curBytes) (hmax : ctx'.maxBytes = ctx.maxBytes)
    (hcontinuous : ctx'.continuous = ctx.continuous) : Wrote [] ctx ctx' :=
  ⟨by rw [hfile, append_nil], by rw [hfile]; rfl, hcur, hmax, hcontinuous, hcur.symm ▸ h.limit⟩

lemma writeAt_end (content data : Bytes) :
    writeAt content content.length data = content ++ data := by
  have hzeros := writeAt_zeros content data 0
  simpa using hzeros

section attempts

variable {sizeBits : Nat}

lemma networkByteLimit_eq {n : Nat} (hlimit : ctx.curBytes ≤ ctx.maxBytes)
    (hfits : ctx.maxBytes + n < 2 ^ sizeBits) :
    networkByteLimit sizeBits ctx n = decide (ctx.maxBytes < ctx.curBytes + n) := by
  unfold networkByteLimit
  rw [Nat.mod_eq_of_lt (by omega)]
  split_ifs with hmax
  · symm
    apply decide_eq_false
    omega
  · rfl

lemma downloadLoop_interrupted (buf : Bytes) (k : Nat) (results : List WriteResult)
    (remaining offset : Nat) (ctx : Context) (written : Bytes) :
    downloadLoop sizeBits buf (List.replicate k .interrupted ++ results) remaining offset ctx
      written = downloadLoop sizeBits buf results remaining offset ctx written := by
  induction k with
  | zero => rfl
  | succ k ih =>
    exact ih

/-- A first result that is the whole buffer ends the call. -/
lemma downloadRun_complete {buf : Bytes} (h : ¬networkByteLimit sizeBits ctx buf.length = true)
    {k : Nat} {later : List WriteResult} :
    downloadRun sizeBits ctx buf (List.replicate k .interrupted ++ .wrote buf.length :: later) =
      ⟨.returned buf.length, { ctx with
        file := ctx.file.write buf
        curBytes := (ctx.curBytes + buf.length) % 2 ^ sizeBits }, buf⟩ := by
  have hcount : IsCount buf.length buf.length := ⟨Nat.le_refl _, by omega⟩
  simp [downloadRun, h, downloadLoop_interrupted, downloadLoop, hcount]

/-- A body is written whole or, beyond the limit, not at all. -/
lemma networkDownloadWrite_spec {buf : Bytes} {results : List WriteResult} (hok : ctx.Ok)
    (hcomplete : Complete (.write buf results))
    (hfits : Fits sizeBits ctx.maxBytes (.write buf results)) :
    (∃ ctx', networkDownloadWrite sizeBits ctx buf results = some (buf.length, ctx') ∧
      Wrote buf ctx ctx') ∨
      (networkDownloadWrite sizeBits ctx buf results = some (0, ctx) ∧ buf ≠ []) := by
  obtain ⟨k, rfl⟩ := hcomplete
  have hsum : ctx.maxBytes + buf.length < 2 ^ sizeBits := hfits
  have hlimit := hok.limit
  unfold networkDownloadWrite
  by_cases hover : ctx.maxBytes < ctx.curBytes + buf.length
  · rw [downloadRun, networkByteLimit_eq hlimit hsum, if_pos (decide_eq_true hover)]
    refine Or.inr ⟨rfl, ?_⟩
    rintro rfl
    exact absurd hover (Nat.not_lt.mpr hlimit)
  · rw [downloadRun_complete
        (by rw [networkByteLimit_eq hlimit hsum, decide_eq_true_iff]; exact hover)]
    refine Or.inl ⟨_, rfl, ?_⟩
    have hmod : (ctx.curBytes + buf.length) % 2 ^ sizeBits = ctx.curBytes + buf.length :=
      Nat.mod_eq_of_lt (by omega)
    refine ⟨?_, rfl, hmod, rfl, rfl, ?_⟩
    · simp only [File.write, hok.atEnd, writeAt_end]
    · simp only [hmod]
      exact Nat.le_of_not_lt hover

lemma networkProgressCheck_wrote (hok : ctx.Ok) (bytes now : Int) :
    Wrote [] ctx (networkProgressCheck ctx bytes now).2 := by
  unfold networkProgressCheck
  split_ifs <;> exact .of_fields hok rfl rfl rfl rfl

lemma signalCycle_wrote (hok : ctx.Ok) : Wrote [] ctx (signalCycle ctx) :=
  .of_fields hok rfl rfl rfl rfl

lemma signalShutdown_wrote (hok : ctx.Ok) : Wrote [] ctx (signalShutdown ctx) :=
  .of_fields hok rfl rfl rfl rfl

variable {events : List Event} {code : Code}

lemma afterAbort_wrote (hok : ctx.Ok) (h : afterAbort events ctx = some ctx') :
    Wrote [] ctx ctx' ∧ bodyOf events = [] := by
  induction events generalizing ctx with
  | nil =>
    cases h
    exact ⟨.refl hok, rfl⟩
  | cons event events ih =>
    cases event with
    | write buf results | progress dlnow now => exact absurd h.symm (some_ne_none _)
    | cycleConnection =>
      have hsignal := signalCycle_wrote hok
      obtain ⟨hwrote, hbody⟩ := ih (hsignal.ok hok) h
      exact ⟨hsignal.trans hwrote, hbody⟩
    | shutdown =>
      have hsignal := signalShutdown_wrote hok
      obtain ⟨hwrote, hbody⟩ := ih (hsignal.ok hok) h
      exact ⟨hsignal.trans hwrote, hbody⟩

/-- An attempt writes its whole body, unless the limit ends it. -/
lemma perform_spec {error : Option Nat} (hok : ctx.Ok)
    (hcomplete : ∀ event ∈ events, Complete event)
    (hfits : ∀ event ∈ events, Fits sizeBits ctx.maxBytes event)
    (h : perform sizeBits error events ctx = some (code, ctx')) :
    ∃ data, Wrote data ctx ctx' ∧ (code ≠ .writeError → data = bodyOf events) := by
  induction events generalizing ctx with
  | nil =>
    cases h
    exact ⟨[], .refl hok, fun _ => rfl⟩
  | cons event events ih =>
    -- what the first event writes is followed by what the rest of the attempt writes
    have hrest : ∀ {data ctx₁}, Wrote data ctx ctx₁ →
        perform sizeBits error events ctx₁ = some (code, ctx') →
        ∃ data', Wrote (data ++ data') ctx ctx' ∧ (code ≠ .writeError → data' = bodyOf events) := by
      intro data ctx₁ hwrote hperform
      obtain ⟨data', hdata', hbody⟩ := ih (hwrote.ok hok)
        (fun e he => hcomplete e (mem_cons_of_mem _ he))
        (fun e he => hwrote.maxBytes.symm ▸ hfits e (mem_cons_of_mem _ he)) hperform
      exact ⟨data', hwrote.trans hdata', hbody⟩
    cases event with
    | write buf results =>
      obtain ⟨⟨n, ctx₁⟩, hwrite, h⟩ := bind_eq_some_iff.mp h
      rcases networkDownloadWrite_spec hok (hcomplete _ mem_cons_self)
        (hfits _ mem_cons_self) with ⟨ctx₂, heq, hwrote⟩ | ⟨heq, hne⟩
      · obtain ⟨rfl, rfl⟩ := Prod.mk.inj (some_inj.mp (heq.symm.trans hwrite))
        dsimp only at h
        rw [if_pos rfl] at h
        obtain ⟨data', hdata', hbody⟩ := hrest hwrote h
        exact ⟨buf ++ data', hdata', fun hcode => congrArg (buf ++ ·) (hbody hcode)⟩
      · obtain ⟨rfl, rfl⟩ := Prod.mk.inj (some_inj.mp (heq.symm.trans hwrite))
        dsimp only at h
        rw [if_neg fun hzero => hne (eq_nil_of_length_eq_zero hzero.symm)] at h
        obtain ⟨ctx₂, habort, heq'⟩ := map_eq_some_iff.mp h
        cases heq'
        exact ⟨[], (afterAbort_wrote hok habort).1, fun hcode => absurd rfl hcode⟩
    | progress dlnow now =>
      have hcheck := networkProgressCheck_wrote hok dlnow now
      simp only [perform] at h
      split_ifs at h with habort
      · obtain ⟨ctx₂, hafter, heq⟩ := map_eq_some_iff.mp h
        cases heq
        obtain ⟨hwrote, hbody⟩ := afterAbort_wrote (hcheck.ok hok) hafter
        exact ⟨[], hcheck.trans hwrote, fun _ => hbody.symm⟩
      · exact hrest hcheck h
    | cycleConnection => exact hrest (signalCycle_wrote hok) h
    | shutdown => exact hrest (signalShutdown_wrote hok) h

/-- The counters start again, the file does not. -/
lemma ok_reset (h : Wrote data ctx ctx') (hok : ctx.Ok) (now : Int) :
    (networkResetCounters ctx' now).Ok :=
  ⟨(h.ok hok).atEnd, Nat.zero_le _⟩

/-- The file has the bodies of all attempts before the last one, and what the last one wrote. -/
theorem networkRequest_spec {attempts rest : List Attempt} (hok : ctx.Ok) (hcur : ctx.curBytes = 0)
    (hcontinuous : ctx.continuous = false)
    (hcomplete : ∀ a ∈ attempts, ∀ event ∈ a.events, Complete event)
    (hfits : ∀ a ∈ attempts, ∀ event ∈ a.events, Fits sizeBits ctx.maxBytes event)
    (h : networkRequest sizeBits attempts ctx = some (code, ctx', rest)) :
    ∃ before last data, attempts = before ++ last :: rest ∧
      ctx'.file.content = ctx.file.content ++ before.flatMap Attempt.body ++ data ∧
      data.length ≤ ctx.maxBytes ∧ (code = .ok → data = last.body) := by
  induction attempts generalizing ctx with
  | nil => exact absurd h.symm (some_ne_none _)
  | cons a attempts ih =>
    obtain ⟨⟨code₁, ctx₁⟩, hperform, h⟩ := bind_eq_some_iff.mp h
    obtain ⟨data, hwrote, hbody⟩ := perform_spec hok (hcomplete a mem_cons_self)
      (hfits a mem_cons_self) hperform
    -- the attempt was the last one
    have hlast : (code₁, ctx₁, attempts) = (code, ctx', rest) →
        ∃ before last data, a :: attempts = before ++ last :: rest ∧
          ctx'.file.content = ctx.file.content ++ before.flatMap Attempt.body ++ data ∧
          data.length ≤ ctx.maxBytes ∧ (code = .ok → data = last.body) := by
      intro heq
      obtain ⟨rfl, rfl, rfl⟩ := heq
      refine ⟨[], a, data, rfl, ?_, ?_, ?_⟩
      · simpa using hwrote.content
      · have hlimit := hwrote.limit
        rw [hwrote.curBytes, hcur] at hlimit
        omega
      · intro hcode
        exact hbody (by rw [hcode]; decide)
    simp only at h
    split_ifs at h with hshutdown hretry
    · exact hlast (some_inj.mp h)
    · -- without `continuous` only an abort by the progress callback leads to another attempt
      have hcode : code₁ = .abortedByCallback := by
        rcases hretry with hcode | htrue
        · exact hcode
        · rw [hwrote.continuous, hcontinuous] at htrue
          exact absurd htrue Bool.false_ne_true
      subst hcode
      obtain ⟨before, last, data', rfl, hcontent, hlength, hdata⟩ :=
        ih (ok_reset hwrote hok a.now) rfl (hwrote.continuous.trans hcontinuous)
          (fun b hb => hcomplete b (mem_cons_of_mem _ hb))
          (fun b hb => hwrote.maxBytes.symm ▸ hfits b (mem_cons_of_mem _ hb)) h
      refine ⟨a :: before, last, data', rfl, ?_, hwrote.maxBytes ▸ hlength, hdata⟩
      rw [hcontent]
      simp only [networkResetCounters, hwrote.content, hbody (by decide), flatMap_cons,
        Attempt.body, append_assoc]
    · exact hlast (some_inj.mp h)

end attempts

/-! ### Downloads -/

lemma flatMap_body_eq_nil_iff {attempts : List Attempt} :
    attempts.flatMap Attempt.body = [] ↔ ∀ a ∈ attempts, a.body = [] :=
  flatMap_eq_nil_iff

/-- A download that ends with success has the body of the last attempt in its file, and has written
no more than the limit, exactly if the attempts before delivered nothing. If they delivered nothing
the limit holds however the download ends. -/
theorem otaDownload_iff (sizeBits maxBytes : Nat) (cycleConnectionSignaled : Bool) (now : Int)
    (attempts : List Attempt)
    (hcomplete : ∀ a ∈ attempts, ∀ event ∈ a.events, Complete event)
    (hfits : ∀ a ∈ attempts, ∀ event ∈ a.events, Fits sizeBits maxBytes event)
    {code : Code} {ctx : Context} {rest : List Attempt}
    (h : otaDownload sizeBits maxBytes cycleConnectionSignaled now attempts =
      some (code, ctx, rest)) :
    ∃ before last, attempts = before ++ last :: rest ∧
      (code = .ok → ((ctx.file.content = last.body ∧ ctx.file.content.length ≤ maxBytes) ↔
        ∀ a ∈ before, a.body = [])) ∧
      ((∀ a ∈ before, a.body = []) → ctx.file.content.length ≤ maxBytes) := by
  obtain ⟨before, last, data, hattempts, hcontent, hlength, hdata⟩ :=
    networkRequest_spec ⟨rfl, Nat.zero_le _⟩ rfl rfl hcomplete hfits h
  rw [nil_append] at hcontent
  have hlimit : (∀ a ∈ before, a.body = []) → ctx.file.content.length ≤ maxBytes := by
    intro hempty
    rw [hcontent, flatMap_body_eq_nil_iff.mpr hempty, nil_append]
    exact hlength
  refine ⟨before, last, hattempts, fun hcode => ?_, hlimit⟩
  rw [hcontent, hdata hcode] at *
  constructor
  · rintro ⟨hsame, -⟩
    exact flatMap_body_eq_nil_iff.mp (append_left_eq_self.mp hsame)
  · intro hempty
    exact ⟨by rw [flatMap_body_eq_nil_iff.mpr hempty, nil_append], hlimit hempty⟩

/-- A body that is written at once. -/
def bodyEvent (buf : Bytes) : Event := .write buf [.wrote buf.length]

/-- The first attempt stalls before it delivers anything, the second delivers two bodies. -/
def stalledAtOnce : List Attempt := [{ events := [.progress 0 10], error := none, now := 10 },
   { events := [bodyEvent [1, 2], .progress 2 11, bodyEvent [3]], error := none, now := 12 }]

/-- The first attempt stalls after it has delivered a body. -/
def stalledLater : List Attempt :=
  [{ events := [bodyEvent [1, 2], .progress 2 5, .progress 2 15], error := none, now := 15 },
   { events := [bodyEvent [3]], error := none, now := 16 }]

theorem otaDownload_iff_stalledAtOnce :
    ∃ code ctx rest, otaDownload 32 100 false 0 stalledAtOnce = some (code, ctx, rest) ∧
      ∃ before last, stalledAtOnce = before ++ last :: rest ∧
        (code = .ok → ((ctx.file.content = last.body ∧ ctx.file.content.length ≤ 100) ↔
          ∀ a ∈ before, a.body = [])) ∧
        ((∀ a ∈ before, a.body = []) → ctx.file.content.length ≤ 100) := by
  have hrun : otaDownload 32 100 false 0 stalledAtOnce = some (.ok,
      { file := { content := [1, 2, 3], offset := 3 }, maxBytes := 100, curBytes := 3,
        bytesTransfered := 2, byteMoveTime := 11, shutdownSignaled := false,
        cycleConnectionSignaled := false, continuous := false }, []) := by decide
  refine ⟨_, _, _, hrun, otaDownload_iff _ _ _ _ _ ?_ ?_ hrun⟩
  · simp [stalledAtOnce, bodyEvent, Complete]
  · simp [stalledAtOnce, bodyEvent, Fits]

/-- With a limit of two bytes the download ends with success, and the file has the three bytes of
both attempts. -/
theorem otaDownload_mixed : (otaDownload 32 2 false 0 stalledLater).map
        (fun r => (r.1, r.2.1.file.content, r.2.2.length)) = some (.ok, [1, 2, 3], 0) ∧
    stalledLater.map Attempt.body = [[1, 2], [3]] := by
  decide

end PiksiBuildroot.Libnetwork
