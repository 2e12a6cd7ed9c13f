import PiksiBuildroot.Lib.Stdio
import Mathlib.Algebra.Group.Nat.Defs

/-!
# The fd cache of the file IO daemon

The daemon keeps up to 32 streams open between requests, each with the path and mode it was opened
for and the offset its next byte is at. This module models the cache (`open_file`,
`flush_cached_fd`, the purge by age and the flush of all of it) and the request handlers over it,
as they run without the write thread, on the files and streams of `Lib.Stdio`. Requests are decoded
messages: the length checks at the head of each handler are not part of this model.
-/

namespace PiksiBuildroot.SbpFileio.FdCache

open Lib Lib.Stdio

/-- Source: `FD_CACHE_COUNT`. -/
def fdCacheCount : Nat := 32

/-- Source: `CACHE_CLOSE_AGE`, in seconds. -/
def cacheCloseAge : Int := 3

/-- Source: `CHECK_FD_CACHE_EVERY`, 1000 ms in periods of 100 ms. -/
def checkFdCacheEvery : Nat := 1000 / 100

/-- Source: `SBP_FRAMING_MAX_PAYLOAD_SIZE`. -/
def sbpFramingMaxPayloadSize : Nat := 255

/-- The sequence number in front of the bytes of a read reply. Source: `msg_fileio_read_resp_t`. -/
def sizeofReadResp : Nat := 4

/-- What the handlers do not compute: the flags of the daemon, permissions, the path validator, the
block size of stdio, the offsets that `fseek` takes, and the width of `size_t`. With a `long` of 64
bits `fseek` takes every offset of a message; with one of 32 bits it takes those below `2 ^ 31`. An
offset that it takes, moved by one message, is a `size_t`. -/
structure Env where
  noCache : Bool
  allowFactoryMtd : Bool
  allowImagesetBin : Bool
  perms : Permissions String
  pathValidatorCheck : String → Bool
  bufsiz : Nat
  seekLimit : Nat
  sizetMod : Nat
  fits : seekLimit + sbpFramingMaxPayloadSize ≤ sizetMod

/-- A slot of the cache; `fp` is the number of a stream. Source: `fd_cache_t`. -/
structure FdCacheEntry where
  fp : Option Nat
  path : String
  mode : Option Mode
  openedAt : Int
  offset : Nat

/-- Source: `empty_cache_entry`. -/
def emptyCacheEntry : FdCacheEntry := ⟨none, "", none, -1, 0⟩

/-- A stream in the hands of a handler; `offset` is the slot whose offset it points to.
Source: `open_file_t`. -/
structure OpenFile where
  fp : Option Nat
  cached : Bool
  offset : Option Nat

/-- Source: `empty_open_file`. -/
def emptyOpenFile : OpenFile := ⟨none, false, none⟩

/-- The files and streams, the cache and the tick counter of `timer_handler`. -/
structure State where
  fs : Fs String
  fdCache : Nat → FdCacheEntry
  triggerCachePurge : Nat

/-- The daemon as it starts: no slot is in use. -/
def State.init (disk : Disk String) : State := ⟨.ofDisk disk, fun _ => ⟨none, "", none, 0, 0⟩, 0⟩

/-- Put an entry in a slot. -/
def State.setSlot (s : State) (idx : Nat) (e : FdCacheEntry) : State :=
  { s with fdCache := Function.update s.fdCache idx e }

/-! ### The cache -/

/-- Close the stream of a slot and empty the slot. -/
def closeSlot (s : State) (idx : Nat) : State := match (s.fdCache idx).fp with
  | none => s.setSlot idx emptyCacheEntry
  | some f => { s with fs := s.fs.fclose f }.setSlot idx emptyCacheEntry

/-- The loop over the slots that closes those that meet a condition. -/
def closeWhere (cond : FdCacheEntry → Bool) (s : State) : State :=
  (List.range fdCacheCount).foldl
    (fun s idx => if cond (s.fdCache idx) then closeSlot s idx else s) s

/-- Source: `flush_fd_cache`. -/
def flushFdCache (s : State) : State := closeWhere (fun e => e.fp.isSome) s

/-- Source: `timer_handler`; `now` is what `time` returns. -/
def timerHandler (s : State) (now : Int) : State :=
  if s.triggerCachePurge + 1 = checkFdCacheEvery then
    { closeWhere (fun e => e.fp.isSome && decide (now - e.openedAt ≥ cacheCloseAge)) s with
      triggerCachePurge := 0 }
  else { s with triggerCachePurge := s.triggerCachePurge + 1 }

/-- The slot holds a stream of this path and mode. -/
def FdCacheEntry.isFor (path : String) (mode : Mode) (e : FdCacheEntry) : Bool :=
  e.path == path && e.mode == some mode

/-- Source: `flush_cached_fd`. -/
def flushCachedFd (s : State) (path : String) (mode : Mode) : State :=
  closeWhere (FdCacheEntry.isFor path mode) s

/-- The first slot that meets a condition. -/
def findSlot (s : State) (cond : FdCacheEntry → Bool) : Option Nat :=
  (List.range fdCacheCount).find? fun idx => cond (s.fdCache idx)

/-- Source: `open_file`. The mode stands for the flags too: `r` is opened with `O_RDONLY`, `w` with
`O_WRONLY | O_CREAT`. The offset of a slot is not set here: it is that of an empty entry. -/
def openFile (env : Env) (s : State) (path : String) (mode : Mode) (now : Int) : OpenFile × State :=
  match if env.noCache then none else findSlot s (FdCacheEntry.isFor path mode) with
  | some idx =>
    (⟨(s.fdCache idx).fp, true, some idx⟩, s.setSlot idx { s.fdCache idx with openedAt := now })
  | none =>
    match s.fs.fopen env.perms path mode with
    | none => (emptyOpenFile, s)
    | some (f, fs) =>
      if env.noCache then (⟨some f, false, none⟩, { s with fs := fs })
      else
        match findSlot s (fun e => e.fp.isNone) with
        | some idx =>
          (⟨some f, true, some idx⟩,
            { s with fs := fs }.setSlot idx ⟨some f, path, some mode, now, (s.fdCache idx).offset⟩)
        | none => (⟨some f, false, none⟩, { s with fs := fs })

/-- Source: `read_offset`. -/
def readOffset (s : State) (r : OpenFile) : Int := match r.offset with
  | none => -1
  | some idx => (s.fdCache idx).offset

/-- Source: `OP_INCREMENT`, `OP_ASSIGN`. -/
inductive OffsetOp where
  | increment
  | assign

/-- Source: `update_offset`. -/
def updateOffset (env : Env) (s : State) (r : OpenFile) (offset : Nat) (op : OffsetOp) : State :=
  match r.offset with
  | none => s
  | some idx =>
    let old := (s.fdCache idx).offset
    let new := match op with
      | .increment => (old + offset) % env.sizetMod
      | .assign => offset % env.sizetMod
    s.setSlot idx { s.fdCache idx with offset := new }

/-- Source: `finalize_non_cached`. -/
def finalizeNonCached (s : State) (r : OpenFile) : State := match r.fp with
  | none => s
  | some f => if r.cached then s else { s with fs := s.fs.fclose f }

/-! ### Requests -/

/-- Source: `msg_fileio_read_req_t`. -/
structure ReadReq where
  sequence : Nat
  offset : Nat
  chunkSize : Nat
  filename : String

/-- Source: `msg_fileio_write_req_t` and the bytes behind the name. -/
structure WriteReq where
  sequence : Nat
  offset : Nat
  filename : String
  contents : Bytes

/-- Source: `SBP_MSG_FILEIO_READ_RESP`, `SBP_MSG_FILEIO_WRITE_RESP`. -/
inductive Reply where
  | readResp (sequence : Nat) (contents : Bytes)
  | writeResp (sequence : Nat)
  deriving DecidableEq, Repr

/-- Source: `DENY_MTD_READ`, `NO_MTD_READ`, `ALLOW_MTD_READ`. -/
inductive MtdRead where
  | deny
  | no
  | allow
  deriving DecidableEq

/-- Source: `allow_mtd_read`. -/
def allowMtdRead (env : Env) (path : String) : MtdRead :=
  if path ≠ "/factory/mtd" then .no else if env.allowFactoryMtd then .allow else .deny

/-- Source: `filter_imageset_bin`. -/
def filterImagesetBin (env : Env) (filename : String) : String :=
  if !env.allowImagesetBin then filename
  else if filename ≠ "upgrade.image_set.bin" then filename
  else "/data/upgrade.image_set.bin"

/-- A read request that is answered without bytes. Source: the first test of `read_cb`. -/
def readDenied (env : Env) (filename : String) : Bool := allowMtdRead env filename == .deny ||
    (allowMtdRead env filename == .no && !env.pathValidatorCheck filename)

/-- Source: `readlen` in `read_cb`. -/
def ReadReq.readlen (msg : ReadReq) : Nat :=
  min msg.chunkSize (sbpFramingMaxPayloadSize - sizeofReadResp)

/-- Bring a stream to the offset of a request unless its tracked offset is there. `none` is an
`fseek` that fails. Source: `read_cb`, `sbp_fileio_write`. -/
def seekTo (env : Env) (s : State) (r : OpenFile) (f offset : Nat) : Option State :=
  if readOffset s r ≠ offset then
    if offset < env.seekLimit then
      some (updateOffset env { s with fs := s.fs.fseek f offset } r offset .assign)
    else none
  else some s

/-- The part of `read_cb` that runs when the write queue is empty. -/
def readWhenEmpty (env : Env) (s : State) (theFile : OpenFile) (f readlen : Nat) : Bytes × State :=
  let result := s.fs.fread env.bufsiz f readlen
  (result.1, finalizeNonCached { s with fs := result.2 } theFile)

/-- The end of `read_cb`, from the label `done` on. -/
def readDone (env : Env) (s : State) (msg : ReadReq) (theFile : OpenFile) (flushCached : Bool)
    (contents : Bytes) : Reply × State :=
  let s := if flushCached then flushCachedFd s msg.filename .r else s
  (.readResp msg.sequence contents, updateOffset env s theFile contents.length .increment)

/-- Source: `read_cb`. -/
def readCb (env : Env) (s : State) (msg : ReadReq) (now : Int) : Reply × State :=
  if readDenied env msg.filename then readDone env s msg emptyOpenFile false []
  else
    let s := flushCachedFd s msg.filename .w
    let (theFile, s) := openFile env s msg.filename .r now
    match theFile.fp with
    | none => readDone env s msg theFile true []
    | some f =>
      match seekTo env s theFile f msg.offset with
      | none => readDone env s msg theFile true []
      | some s =>
        let (contents, s) := readWhenEmpty env s theFile f msg.readlen
        readDone env s msg theFile false contents

/-- Source: `sbp_fileio_write`; whether it succeeded, and the state. -/
def sbpFileioWrite (env : Env) (s : State) (msg : WriteReq) (now : Int) : Bool × State :=
  let filename := filterImagesetBin env msg.filename
  if !env.pathValidatorCheck filename then (false, s)
  else
    let s := flushCachedFd s filename .r
    let (r, s) := openFile env s filename .w now
    match r.fp with
    | none => (false, s)
    | some f =>
      match seekTo env s r f msg.offset with
      | none => (false, finalizeNonCached (flushCachedFd s filename .w) r)
      | some s =>
        let s := { s with fs := s.fs.fwrite f msg.contents }
        let s := updateOffset env s r msg.contents.length .increment
        (true, finalizeNonCached s r)

/-- Source: `write_cb` with threading disabled. -/
def writeCb (env : Env) (s : State) (msg : WriteReq) (now : Int) : List Reply × State :=
  let (success, s) := sbpFileioWrite env s msg now
  (if success then [.writeResp msg.sequence] else [], s)

/-- Source: `remove_cb` with threading disabled. -/
def removeCb (env : Env) (s : State) (msg : String) : State :=
  let filename := filterImagesetBin env msg
  if !env.pathValidatorCheck filename then s
  else
    let s := flushCachedFd s filename .r
    let s := flushCachedFd s filename .w
    { s with fs := s.fs.unlink env.perms filename }

end PiksiBuildroot.SbpFileio.FdCache
