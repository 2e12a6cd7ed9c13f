import Mathlib.Data.List.Basic
import Mathlib.Logic.Function.Basic

/-!
# Files behind buffered streams

A file system with names, inodes and open streams, as a program sees it through `fopen`, `fseek`,
`fread`, `fwrite`, `fclose` and `unlink`. A stream that reads holds a block it has read ahead and
serves reads from it; a stream that writes holds its writes back until it is closed.

`Coherent fs store` says that neither shows: `store` is what the files hold once every stream is
closed, no file is open twice, and every block read ahead is what its file has there.
-/

namespace PiksiBuildroot.Lib

open Function List Option

/-- The content of a file. -/
abbrev Bytes := List UInt8

namespace Stdio

/-- At most `n` bytes of a file from `offset` on. -/
def readAt (content : Bytes) (offset n : Nat) : Bytes := (content.drop offset).take n

/-- Put `data` at `offset`. A gap behind the old end is filled with zeros; no data is no change. -/
def writeAt (content : Bytes) (offset : Nat) (data : Bytes) : Bytes := if data = [] then content
  else content.take offset ++ List.replicate (offset - content.length) 0 ++ data ++
    content.drop (offset + data.length)

/-- Cut a file off, or extend it with zeros, to `n` bytes. -/
def ftruncate (content : Bytes) (n : Nat) : Bytes := (content ++ List.replicate n 0).take n

/-- Data put where only zeros follow. -/
lemma writeAt_zeros (content data : Bytes) (n : Nat) :
    writeAt (content ++ List.replicate n 0) content.length data =
      content ++ data ++ List.replicate (n - data.length) 0 := by
  unfold writeAt
  split_ifs with hdata
  · subst hdata
    simp
  · simp [drop_append]

lemma ftruncate_zeros {content : Bytes} {m : Nat} (n : Nat) (h : content.length ≤ m) :
    ftruncate (content ++ List.replicate n 0) m =
      content ++ List.replicate (m - content.length) 0 := by
  unfold ftruncate
  rw [append_assoc, replicate_append_replicate, take_append, take_replicate, take_of_length_le h]
  congr 2
  omega

/-- What is in an updated table was put there or was there before. -/
lemma update_eq_some {α β : Type*} [DecidableEq α] {table : α → Option β} {a b : α}
    {entry : Option β} {x : β} (h : update table a entry b = some x) :
    (b = a ∧ entry = some x) ∨ (b ≠ a ∧ table b = some x) := by
  by_cases hba : b = a
  · subst hba
    rw [update_self] at h
    exact .inl ⟨rfl, h⟩
  · rw [update_of_ne hba] at h
    exact .inr ⟨hba, h⟩

/-- What a stream is open for. -/
inductive Mode where
  | r
  | w
  deriving DecidableEq, Repr

/-- The buffer of a stream: bytes read ahead and where they are from, or writes held back. -/
inductive Buffer where
  | ahead (start : Nat) (bytes : Bytes)
  | held (writes : List (Nat × Bytes))

/-- What a stream with this buffer is open for. -/
def Buffer.mode : Buffer → Mode
  | ahead _ _ => .r
  | held _ => .w

/-- The content of a file after the writes held back for it. -/
def Buffer.flush : Buffer → Bytes → Bytes
  | ahead _ _, content => content
  | held writes, content => writes.foldl (fun c w => writeAt c w.1 w.2) content

/-- An open stream: its file, its position and its buffer. -/
structure Stream where
  inode : Nat
  pos : Nat
  buffer : Buffer

/-- A stream that has just been opened. -/
def Stream.opened (inode : Nat) : Mode → Stream
  | .r => ⟨inode, 0, .ahead 0 []⟩
  | .w => ⟨inode, 0, .held []⟩

/-- Names, the content of each inode, and the open streams. Inodes and streams are numbered as
they come; a number is not used twice. -/
structure Fs (P : Type*) where
  names : P → Option Nat
  inodes : Nat → Bytes
  nextInode : Nat
  streams : Nat → Option Stream
  nextStream : Nat

/-- What the process may do with the file of each name. A file that it may create is one that it
may write. -/
structure Permissions (P : Type*) where
  readable : P → Bool
  writable : P → Bool
  creatable : P → Bool
  removable : P → Bool
  writable_of_creatable : ∀ p, creatable p → writable p

/-- An existing file may be opened in this mode. -/
def Permissions.allows {P : Type*} (perms : Permissions P) (p : P) : Mode → Bool
  | .r => perms.readable p
  | .w => perms.writable p

/-- Files without open streams. Different names have different inodes. -/
structure Disk (P : Type*) where
  names : P → Option Nat
  inodes : Nat → Bytes
  nextInode : Nat
  names_lt : ∀ p i, names p = some i → i < nextInode
  names_inj : ∀ p q i, names p = some i → names q = some i → p = q

/-- What each name holds, if it names a file. -/
abbrev Store (P : Type*) := P → Option Bytes

/-- What opening a file does to the store: a file that is missing is created for writing. -/
def Store.fopen {P : Type*} [DecidableEq P] (perms : Permissions P) (store : Store P) (p : P)
    (mode : Mode) : Option (Store P) :=
  match store p, mode with
  | some _, mode => if perms.allows p mode then some store else none
  | none, .r => none
  | none, .w => if perms.creatable p then some (Function.update store p (some [])) else none

variable {P : Type*} {perms : Permissions P} {store store' : Store P} {p : P}

/-- Opening for reading changes nothing. -/
lemma Store.eq_of_fopen_r [DecidableEq P] (h : store.fopen perms p .r = some store') :
    store = store' := by
  unfold Store.fopen at h
  split at h
  · split_ifs at h
    exact some.inj h
  · cases h
  · simp_all

/-- A file that has been opened can be opened again, and that changes nothing. -/
lemma Store.fopen_fopen [DecidableEq P] {mode : Mode} (h : store.fopen perms p mode = some store') :
    store'.fopen perms p mode = some store' := by
  unfold Store.fopen at h
  split at h
  · next hp =>
      split_ifs at h with hallows
      cases h
      simp [Store.fopen, hp, hallows]
  · cases h
  · split_ifs at h with hc
    cases h
    have hallows : perms.allows p .w := perms.writable_of_creatable p hc
    simp [Store.fopen, hallows]

namespace Fs

/-- Start with no stream open. -/
def ofDisk (disk : Disk P) : Fs P := ⟨disk.names, disk.inodes, disk.nextInode, fun _ => none, 0⟩

/-- What is on the disk under a name; writes that are held back are not there. -/
def content (fs : Fs P) : Store P := fun p => (fs.names p).map fs.inodes

/-- Open a stream on an inode. -/
def openStream (fs : Fs P) (inode : Nat) (mode : Mode) : Nat × Fs P := (fs.nextStream, { fs with
    streams := Function.update fs.streams fs.nextStream (some (.opened inode mode))
    nextStream := fs.nextStream + 1 })

/-- Replace an open stream. -/
def setStream (fs : Fs P) (f : Nat) (st : Stream) : Fs P :=
  { fs with streams := Function.update fs.streams f (some st) }

variable {fs : Fs P}

/-- Putting an open stream where it is changes nothing. -/
lemma setStream_self {f : Nat} {st : Stream} (hf : fs.streams f = some st) :
    fs.setStream f st = fs := by
  unfold setStream
  rw [← hf, update_eq_self]

/-- Set the position. The block read ahead stays. -/
def fseek (fs : Fs P) (f offset : Nat) : Fs P := match fs.streams f with
  | none => fs
  | some st => fs.setStream f { st with pos := offset }

/-- The bytes from `pos` on that were read ahead. -/
def ahead (start : Nat) (bytes : Bytes) (pos : Nat) : Bytes :=
  if start ≤ pos then bytes.drop (pos - start) else []

/-- Read at most `n` bytes: first what was read ahead, then, if that is too little, a block of at
least `bufsiz` bytes of the file, which is kept. -/
def fread (bufsiz : Nat) (fs : Fs P) (f n : Nat) : Bytes × Fs P := match fs.streams f with
  | some ⟨inode, pos, .ahead start bytes⟩ =>
    let front := (ahead start bytes pos).take n
    if front.length = n then (front, fs.setStream f ⟨inode, pos + n, .ahead start bytes⟩)
    else
      let block := readAt (fs.inodes inode) (pos + front.length) (max bufsiz (n - front.length))
      let result := front ++ block.take (n - front.length)
      (result, fs.setStream f ⟨inode, pos + result.length, .ahead (pos + front.length) block⟩)
  | _ => ([], fs)

/-- Write at the position; the write is held back. -/
def fwrite (fs : Fs P) (f : Nat) (data : Bytes) : Fs P := match fs.streams f with
  | some ⟨inode, pos, .held writes⟩ =>
    fs.setStream f ⟨inode, pos + data.length, .held (writes ++ [(pos, data)])⟩
  | _ => fs

/-- Close a stream; the writes it holds reach the file. -/
def fclose (fs : Fs P) (f : Nat) : Fs P := match fs.streams f with
  | none => fs
  | some st => { fs with
      inodes := Function.update fs.inodes st.inode (st.buffer.flush (fs.inodes st.inode))
      streams := Function.update fs.streams f none }

variable [DecidableEq P]

/-- Open a file for reading, or for writing without truncation, creating it if it is missing. -/
def fopen (perms : Permissions P) (fs : Fs P) (p : P) (mode : Mode) : Option (Nat × Fs P) :=
  match fs.names p, mode with
  | some i, mode => if perms.allows p mode then some (fs.openStream i mode) else none
  | none, .r => none
  | none, .w =>
    if perms.creatable p then
      some ({ fs with
        names := Function.update fs.names p (some fs.nextInode)
        inodes := Function.update fs.inodes fs.nextInode []
        nextInode := fs.nextInode + 1 }.openStream fs.nextInode .w)
    else none

/-- Remove a name. -/
def unlink (perms : Permissions P) (fs : Fs P) (p : P) : Fs P :=
  if perms.removable p then { fs with names := Function.update fs.names p none } else fs

/-! ### Files and streams that agree with a store -/

/-- No stream is open on an inode. -/
def Unopened (fs : Fs P) (inode : Nat) : Prop := ∀ f st, fs.streams f = some st → st.inode ≠ inode

/-- `store` is what the files hold once every stream is closed; no file is open twice, no stream is
open on a file without a name, and what was read ahead is what the file has. -/
structure Coherent (fs : Fs P) (store : Store P) : Prop where
  names_lt : ∀ p i, fs.names p = some i → i < fs.nextInode
  names_inj : ∀ p q i, fs.names p = some i → fs.names q = some i → p = q
  streams_lt : ∀ f st, fs.streams f = some st → f < fs.nextStream
  named : ∀ f st, fs.streams f = some st → ∃ p, fs.names p = some st.inode
  single : ∀ f g a b, fs.streams f = some a → fs.streams g = some b → a.inode = b.inode → f = g
  readAhead : ∀ f st start bytes, fs.streams f = some st → st.buffer = .ahead start bytes →
    bytes = readAt (fs.inodes st.inode) start bytes.length
  missing : ∀ p, fs.names p = none → store p = none
  unopened : ∀ p i, fs.names p = some i → fs.Unopened i → store p = some (fs.inodes i)
  opened : ∀ p f st, fs.streams f = some st → fs.names p = some st.inode →
    store p = some (st.buffer.flush (fs.inodes st.inode))

omit [DecidableEq P] in
/-- Files without open streams agree with what they hold. -/
lemma coherent_ofDisk (disk : Disk P) : Coherent (ofDisk disk) (ofDisk disk).content where
  names_lt := disk.names_lt
  names_inj := disk.names_inj
  streams_lt := by simp [ofDisk]
  named := by simp [ofDisk]
  single := by simp [ofDisk]
  readAhead := by simp [ofDisk]
  missing p hp := by simp [content, hp]
  unopened p i hp _ := by simp [content, hp]
  opened := by simp [ofDisk]

variable {writes : List (Nat × Bytes)}

namespace Coherent

variable {store : Store P} {f : Nat} {st : Stream} {p : P}

omit [DecidableEq P] in
/-- With no stream open, the store is on the disk. -/
lemma content_eq (h : Coherent fs store) (hclosed : ∀ g, fs.streams g = none) :
    fs.content = store := by
  funext q
  rcases hq : fs.names q with _ | i
  · simp [content, hq, h.missing q hq]
  · rw [h.unopened q i hq (fun g a hg => by simp [hclosed g] at hg)]
    simp [content, hq]

variable {i : Nat} {st' : Stream}

omit [DecidableEq P] in
/-- A name that has a file has one in the store. -/
lemma isSome_of_names (h : Coherent fs store) (hp : fs.names p = some i) : (store p).isSome := by
  by_cases hopen : fs.Unopened i
  · simp [h.unopened p i hp hopen]
  · simp only [Unopened, not_forall, not_not] at hopen
    obtain ⟨g, a, hg, rfl⟩ := hopen
    simp [h.opened p g a hg hp]

/-- A stream may be replaced by another one on the same file; the store gets what its buffer then
makes of the file. -/
lemma setStream (h : Coherent fs store) (hf : fs.streams f = some st)
    (hp : fs.names p = some st.inode) (hinode : st'.inode = st.inode)
    (hahead : ∀ start bytes, st'.buffer = .ahead start bytes →
      bytes = readAt (fs.inodes st.inode) start bytes.length) :
    Coherent (fs.setStream f st')
      (update store p (some (st'.buffer.flush (fs.inodes st.inode)))) := by
  have hstreams : ∀ g a, (fs.setStream f st').streams g = some a →
      (g = f ∧ a = st') ∨ (g ≠ f ∧ fs.streams g = some a) := by
    intro g a hg
    rcases update_eq_some hg with ⟨rfl, ha⟩ | hg
    · exact .inl ⟨rfl, (some.inj ha).symm⟩
    · exact .inr hg
  -- every stream of the new table is on the inode that the old one of its number is on
  have hsame : ∀ g a, (fs.setStream f st').streams g = some a →
      ∃ b, fs.streams g = some b ∧ b.inode = a.inode := by
    intro g a hg
    rcases hstreams g a hg with ⟨rfl, rfl⟩ | ⟨-, hg⟩
    · exact ⟨st, hf, hinode.symm⟩
    · exact ⟨a, hg, rfl⟩
  refine ⟨h.names_lt, h.names_inj, ?_, ?_, ?_, ?_, ?_, ?_, ?_⟩
  · intro g a hg
    obtain ⟨b, hb, -⟩ := hsame g a hg
    exact h.streams_lt g b hb
  · intro g a hg
    obtain ⟨b, hb, hba⟩ := hsame g a hg
    exact hba ▸ h.named g b hb
  · intro g g' a a' hg hg' haa
    obtain ⟨b, hb, hba⟩ := hsame g a hg
    obtain ⟨b', hb', hba'⟩ := hsame g' a' hg'
    exact h.single g g' b b' hb hb' (by rw [hba, hba', haa])
  · intro g a start bytes hg hbuf
    rcases hstreams g a hg with ⟨-, rfl⟩ | ⟨-, hg⟩
    · rw [hinode]
      exact hahead start bytes hbuf
    · exact h.readAhead g a start bytes hg hbuf
  · intro q hq
    have hqp : q ≠ p := by
      rintro rfl
      simp [Fs.setStream, hp] at hq
    rw [update_of_ne hqp]
    exact h.missing q hq
  · intro q i hq hopen
    have hqp : q ≠ p := by
      rintro rfl
      have hi : st.inode = i := by simpa [Fs.setStream, hp] using hq
      exact hopen f st' (by simp [Fs.setStream]) (hinode.trans hi)
    rw [update_of_ne hqp]
    apply h.unopened q i hq
    intro g b hb hbi
    by_cases hgf : g = f
    · subst hgf
      have hbst : b = st := by simpa [hf] using hb.symm
      exact hopen g st' (by simp [Fs.setStream]) (by rw [hinode, ← hbst, hbi])
    · exact hopen g b (by simpa [Fs.setStream, hgf] using hb) hbi
  · intro q g a hg hq
    rcases hstreams g a hg with ⟨-, rfl⟩ | ⟨hgf, hg⟩
    · have hqp : q = p := h.names_inj q p _ hq (by rw [hp, hinode])
      rw [hqp, update_self, hinode]
      rfl
    · have hqp : q ≠ p := by
        rintro rfl
        have hi : a.inode = st.inode := by simpa [Fs.setStream, hp] using hq.symm
        exact hgf (h.single g f a st hg hf hi)
      rw [update_of_ne hqp]
      exact h.opened q g a hg hq

/-- A stream may be replaced by another one that makes the same of its file. -/
lemma setStream_of_flush_eq (h : Coherent fs store) (hf : fs.streams f = some st)
    (hinode : st'.inode = st.inode)
    (hahead : ∀ start bytes, st'.buffer = .ahead start bytes →
      bytes = readAt (fs.inodes st.inode) start bytes.length)
    (hflush : st'.buffer.flush (fs.inodes st.inode) = st.buffer.flush (fs.inodes st.inode)) :
    Coherent (fs.setStream f st') store := by
  obtain ⟨p, hp⟩ := h.named f st hf
  have hset := h.setStream hf hp hinode hahead
  rwa [hflush, ← h.opened p f st hf hp, update_eq_self] at hset

/-- Seeking does not change what the files hold. -/
theorem fseek (h : Coherent fs store) (f offset : Nat) : Coherent (fs.fseek f offset) store := by
  unfold Fs.fseek
  rcases hf : fs.streams f with _ | st
  · exact h
  · exact h.setStream_of_flush_eq hf rfl (fun start bytes => h.readAhead f st start bytes hf) rfl

omit [DecidableEq P] in
/-- Closing a stream does not change what the files hold. -/
theorem fclose (h : Coherent fs store) (f : Nat) : Coherent (fs.fclose f) store := by
  unfold Fs.fclose
  rcases hf : fs.streams f with _ | st
  · exact h
  dsimp only
  have hstreams : ∀ g a, Function.update fs.streams f none g = some a →
      fs.streams g = some a ∧ a.inode ≠ st.inode := by
    intro g a hg
    rcases update_eq_some hg with ⟨-, ha⟩ | ⟨hgf, hg⟩
    · cases ha
    · exact ⟨hg, fun hi => hgf (h.single g f a st hg hf hi)⟩
  refine ⟨h.names_lt, h.names_inj, ?_, ?_, ?_, ?_, h.missing, ?_, ?_⟩
  · exact fun g a hg => h.streams_lt g a (hstreams g a hg).1
  · exact fun g a hg => h.named g a (hstreams g a hg).1
  · exact fun g g' a a' hg hg' =>
      h.single g g' a a' (hstreams g a hg).1 (hstreams g' a' hg').1
  · intro g a start bytes hg hbuf
    dsimp only
    rw [Function.update_of_ne (hstreams g a hg).2]
    exact h.readAhead g a start bytes (hstreams g a hg).1 hbuf
  · intro q i hq hopen
    dsimp only at hq ⊢
    by_cases hi : i = st.inode
    · subst hi
      rw [Function.update_self]
      exact h.opened q f st hf hq
    · rw [Function.update_of_ne hi]
      apply h.unopened q i hq
      intro g a hg hai
      have hgf : g ≠ f := by
        rintro rfl
        rw [hf, some.injEq] at hg
        exact hi (by rw [← hai, hg])
      exact hopen g a ((Function.update_of_ne hgf _ _).trans hg) hai
  · intro q g a hg hq
    dsimp only at hq ⊢
    rw [Function.update_of_ne (hstreams g a hg).2]
    exact h.opened q g a (hstreams g a hg).1 hq

omit [DecidableEq P] in
/-- A file that is not open may be opened. -/
lemma openStream (h : Coherent fs store) (hp : fs.names p = some i) (hopen : fs.Unopened i)
    (mode : Mode) : Coherent (fs.openStream i mode).2 store := by
  have hnew : ∀ m, (Stream.opened i m).inode = i := fun m => by cases m <;> rfl
  have hstreams : ∀ g a, (fs.openStream i mode).2.streams g = some a →
      (g = fs.nextStream ∧ a = .opened i mode) ∨ (g < fs.nextStream ∧ fs.streams g = some a) := by
    intro g a hg
    rcases update_eq_some hg with ⟨rfl, ha⟩ | ⟨-, hg⟩
    · exact .inl ⟨rfl, (some.inj ha).symm⟩
    · exact .inr ⟨h.streams_lt g a hg, hg⟩
  refine ⟨h.names_lt, h.names_inj, ?_, ?_, ?_, ?_, h.missing, ?_, ?_⟩
  · intro g a hg
    show g < fs.nextStream + 1
    rcases hstreams g a hg with ⟨rfl, -⟩ | ⟨hlt, -⟩ <;> omega
  · intro g a hg
    rcases hstreams g a hg with ⟨-, rfl⟩ | ⟨-, hg⟩
    · exact ⟨p, by rw [hnew]; exact hp⟩
    · exact h.named g a hg
  · intro g g' a a' hg hg' haa
    rcases hstreams g a hg with ⟨rfl, rfl⟩ | ⟨-, hg⟩ <;>
      rcases hstreams g' a' hg' with ⟨rfl, rfl⟩ | ⟨-, hg'⟩
    · rfl
    · exact absurd (haa.symm.trans (hnew mode)) (hopen g' a' hg')
    · exact absurd (haa.trans (hnew mode)) (hopen g a hg)
    · exact h.single g g' a a' hg hg' haa
  · intro g a start bytes hg hbuf
    rcases hstreams g a hg with ⟨-, rfl⟩ | ⟨-, hg⟩
    · cases mode with
      | r =>
        obtain ⟨-, rfl⟩ : 0 = start ∧ [] = bytes := by simpa [Stream.opened] using hbuf
        simp [readAt]
      | w => simp [Stream.opened] at hbuf
    · exact h.readAhead g a start bytes hg hbuf
  · intro q j hq hopen'
    apply h.unopened q j hq
    intro g a hg
    have hgf : g ≠ fs.nextStream := Nat.ne_of_lt (h.streams_lt g a hg)
    exact hopen' g a (by simpa [Fs.openStream, hgf] using hg)
  · intro q g a hg hq
    rcases hstreams g a hg with ⟨-, rfl⟩ | ⟨-, hg⟩
    · rw [hnew] at hq ⊢
      rw [h.unopened q i hq hopen]
      cases mode <;> rfl
    · exact h.opened q g a hg hq

/-- A file that is missing may be created. -/
lemma create (h : Coherent fs store) (hp : fs.names p = none) : Coherent { fs with
      names := update fs.names p (some fs.nextInode)
      inodes := update fs.inodes fs.nextInode []
      nextInode := fs.nextInode + 1 } (update store p (some [])) := by
  have hnames : ∀ q i, update fs.names p (some fs.nextInode) q = some i →
      (q = p ∧ i = fs.nextInode) ∨ (q ≠ p ∧ i ≠ fs.nextInode ∧ fs.names q = some i) := by
    intro q i hq
    rcases update_eq_some hq with ⟨rfl, hi⟩ | ⟨hqp, hq⟩
    · exact .inl ⟨rfl, (some.inj hi).symm⟩
    · exact .inr ⟨hqp, Nat.ne_of_lt (h.names_lt q i hq), hq⟩
  -- the new inode is not the one of an open stream
  have hstream : ∀ g a, fs.streams g = some a → a.inode ≠ fs.nextInode := by
    intro g a hg
    obtain ⟨q, hq⟩ := h.named g a hg
    exact Nat.ne_of_lt (h.names_lt q a.inode hq)
  refine ⟨?_, ?_, h.streams_lt, ?_, h.single, ?_, ?_, ?_, ?_⟩
  · intro q i hq
    show i < fs.nextInode + 1
    rcases hnames q i hq with ⟨-, rfl⟩ | ⟨-, -, hq⟩
    · omega
    · exact Nat.lt_succ_of_lt (h.names_lt q i hq)
  · intro q q' i hq hq'
    rcases hnames q i hq with ⟨rfl, hi⟩ | ⟨-, hi, hq⟩ <;>
      rcases hnames q' i hq' with ⟨rfl, hi'⟩ | ⟨-, hi', hq'⟩
    · rfl
    · exact absurd hi hi'
    · exact absurd hi' hi
    · exact h.names_inj q q' i hq hq'
  · intro g a hg
    obtain ⟨q, hq⟩ := h.named g a hg
    have hqp : q ≠ p := by
      rintro rfl
      simp [hp] at hq
    exact ⟨q, by rw [← hq]; exact update_of_ne hqp _ _⟩
  · intro g a start bytes hg hbuf
    dsimp only
    rw [update_of_ne (hstream g a hg)]
    exact h.readAhead g a start bytes hg hbuf
  · intro q hq
    dsimp only at hq
    have hqp : q ≠ p := by
      rintro rfl
      simp at hq
    rw [update_of_ne hqp] at hq ⊢
    exact h.missing q hq
  · intro q i hq hopen
    dsimp only
    rcases hnames q i hq with ⟨rfl, rfl⟩ | ⟨hqp, hi, hq⟩
    · simp
    · rw [update_of_ne hqp, update_of_ne hi]
      exact h.unopened q i hq hopen
  · intro q g a hg hq
    dsimp only
    rcases hnames q a.inode hq with ⟨-, hi⟩ | ⟨hqp, hi, hq⟩
    · exact absurd hi (hstream g a hg)
    · rw [update_of_ne hqp, update_of_ne hi]
      exact h.opened q g a hg hq

/-- A name whose file is not open may be removed. -/
lemma removeName (h : Coherent fs store) (hopen : ∀ i, fs.names p = some i → fs.Unopened i) :
    Coherent { fs with names := update fs.names p none }
      (update store p none) := by
  have hnames : ∀ q i, update fs.names p none q = some i → q ≠ p ∧ fs.names q = some i := by
    intro q i hq
    rcases update_eq_some hq with ⟨-, hi⟩ | hq
    · cases hi
    · exact hq
  refine ⟨?_, ?_, h.streams_lt, ?_, h.single, h.readAhead, ?_, ?_, ?_⟩
  · exact fun q i hq => h.names_lt q i (hnames q i hq).2
  · exact fun q q' i hq hq' => h.names_inj q q' i (hnames q i hq).2 (hnames q' i hq').2
  · intro g a hg
    obtain ⟨q, hq⟩ := h.named g a hg
    have hqp : q ≠ p := by
      rintro rfl
      exact hopen _ hq g a hg rfl
    exact ⟨q, by rw [← hq]; exact update_of_ne hqp _ _⟩
  · intro q hq
    dsimp only at hq
    by_cases hqp : q = p
    · rw [hqp, update_self]
    · rw [update_of_ne hqp] at hq ⊢
      exact h.missing q hq
  · intro q i hq hopen'
    obtain ⟨hqp, hq⟩ := hnames q i hq
    rw [update_of_ne hqp]
    exact h.unopened q i hq hopen'
  · intro q g a hg hq
    obtain ⟨hqp, hq⟩ := hnames q a.inode hq
    rw [update_of_ne hqp]
    exact h.opened q g a hg hq

/-- A write goes to the store at the position of the stream. -/
theorem fwrite (h : Coherent fs store) {inode pos : Nat}
    (hf : fs.streams f = some ⟨inode, pos, .held writes⟩) (hp : fs.names p = some inode)
    {content : Bytes} (hcontent : store p = some content) (data : Bytes) :
    Coherent (fs.fwrite f data) (Function.update store p (some (writeAt content pos data))) := by
  have hold : content = (Buffer.held writes).flush (fs.inodes inode) := by
    rw [h.opened p f _ hf hp, some.injEq] at hcontent
    exact hcontent.symm
  have hset : Coherent
      (fs.setStream f ⟨inode, pos + data.length, .held (writes ++ [(pos, data)])⟩) _ :=
    h.setStream hf hp rfl (by simp)
  have hflush : (Buffer.held (writes ++ [(pos, data)])).flush (fs.inodes inode) =
      writeAt content pos data := by
    simp [Buffer.flush, hold]
  unfold Fs.fwrite
  rw [hf]
  exact hflush ▸ hset

/-- Opening a file that is not open does to the store what it says, and gives a new stream at the
start of the file. -/
theorem fopen (h : Coherent fs store) (perms : Permissions P) (mode : Mode)
    (hopen : ∀ i, fs.names p = some i → fs.Unopened i) :
    (fs.fopen perms p mode = none ∧ store.fopen perms p mode = none) ∨
    ∃ fs' store' i, fs.fopen perms p mode = some (fs.nextStream, fs') ∧
      store.fopen perms p mode = some store' ∧ perms.allows p mode ∧ Coherent fs' store' ∧
      fs'.names p = some i ∧ (∀ q, q ≠ p → fs'.names q = fs.names q) ∧
      (∀ j, fs.names p = some j → i = j) ∧
      fs'.streams = Function.update fs.streams fs.nextStream (some (.opened i mode)) := by
  rcases hp : fs.names p with _ | i
  · have hstore := h.missing p hp
    cases mode with
    | r => exact .inl ⟨by simp [Fs.fopen, hp], by simp [Store.fopen, hstore]⟩
    | w =>
      by_cases hc : perms.creatable p
      · refine .inr ⟨_, _, fs.nextInode, by simp only [Fs.fopen, hp, hc, if_true]; rfl,
          by simp only [Store.fopen, hstore, hc, if_true], perms.writable_of_creatable p hc,
          (h.create hp).openStream (Function.update_self p _ _) ?_ .w, ?_⟩
        · intro g a hg hi
          obtain ⟨q, hq⟩ := h.named g a hg
          exact absurd (h.names_lt q a.inode hq) (by omega)
        · exact ⟨Function.update_self p _ _, fun q hq => Function.update_of_ne hq _ _, by simp, rfl⟩
      · exact .inl ⟨by simp [Fs.fopen, hp, hc], by simp [Store.fopen, hstore, hc]⟩
  · obtain ⟨content, hstore⟩ := isSome_iff_exists.mp (h.isSome_of_names hp)
    by_cases ha : perms.allows p mode
    · exact .inr ⟨_, store, i, by simp only [Fs.fopen, hp, ha, if_true]; rfl,
        by simp [Store.fopen, hstore, ha], ha, h.openStream hp (hopen i hp) mode, hp,
        fun _ _ => rfl, by simp, rfl⟩
    · exact .inl ⟨by simp [Fs.fopen, hp, ha], by simp [Store.fopen, hstore, ha]⟩

end Coherent

omit [DecidableEq P] in
/-- Closing a stream leaves the names as they are. -/
@[simp]
lemma fclose_names (fs : Fs P) (f : Nat) : (fs.fclose f).names = fs.names := by
  unfold Fs.fclose
  split <;> rfl

omit [DecidableEq P] in
/-- Closing a stream closes that stream. -/
lemma fclose_streams (fs : Fs P) (f : Nat) : (fs.fclose f).streams = update fs.streams f none := by
  unfold Fs.fclose
  split
  · next hf => rw [← hf, update_eq_self]
  · rfl

omit [DecidableEq P] in
/-- A write moves the position by its length. -/
lemma fwrite_eq {f inode pos : Nat} (hf : fs.streams f = some ⟨inode, pos, .held writes⟩)
    (data : Bytes) :
    fs.fwrite f data =
      fs.setStream f ⟨inode, pos + data.length, .held (writes ++ [(pos, data)])⟩ := by
  unfold Fs.fwrite
  rw [hf]

/-! ### Reads -/

/-- What was read ahead continues where the file does. -/
lemma ahead_eq_readAt {content bytes : Bytes} {start : Nat}
    (h : bytes = readAt content start bytes.length) (pos : Nat) :
    ahead start bytes pos = readAt content pos (ahead start bytes pos).length := by
  unfold ahead
  split_ifs with hpos
  · have hdrop : bytes.drop (pos - start) =
        (content.drop pos).take (bytes.length - (pos - start)) := by
      conv_lhs => rw [h]
      rw [readAt, drop_take, drop_drop, Nat.add_sub_cancel' hpos]
    rw [length_drop, readAt, hdrop]
  · simp [readAt]

/-- A read of a part of what is there, and then of the rest, is a read of all of it. -/
lemma readAt_append {content front : Bytes} {pos n : Nat} (hn : front.length ≤ n)
    (h : front = readAt content pos front.length) :
    front ++ readAt content (pos + front.length) (n - front.length) = readAt content pos n := by
  conv_lhs => rw [h]
  have hlen : (readAt content pos front.length).length = front.length := by rw [← h]
  rw [hlen]
  unfold readAt
  rw [← drop_drop, ← take_add, Nat.add_sub_cancel' hn]

variable {f inode pos start : Nat} {bytes : Bytes}

omit [DecidableEq P] in
/-- A read returns what the file has at the position, and moves the position by what it returns. -/
lemma exists_fread_eq (bufsiz : Nat) (hf : fs.streams f = some ⟨inode, pos, .ahead start bytes⟩)
    (hahead : bytes = readAt (fs.inodes inode) start bytes.length) (n : Nat) :
    ∃ start' bytes', bytes' = readAt (fs.inodes inode) start' bytes'.length ∧
      fs.fread bufsiz f n = (readAt (fs.inodes inode) pos n,
        fs.setStream f ⟨inode, pos + (readAt (fs.inodes inode) pos n).length,
          .ahead start' bytes'⟩) := by
  have hfront : (ahead start bytes pos).take n =
      readAt (fs.inodes inode) pos ((ahead start bytes pos).take n).length := by
    conv_lhs => rw [ahead_eq_readAt hahead pos]
    rw [readAt, readAt, take_take, length_take]
  have hfrontle : ((ahead start bytes pos).take n).length ≤ n := length_take_le _ _
  unfold Fs.fread
  rw [hf]
  dsimp only
  by_cases hn : ((ahead start bytes pos).take n).length = n
  · rw [if_pos hn]
    rw [hn] at hfront
    exact ⟨start, bytes, hahead, by rw [← hfront, hn]⟩
  · rw [if_neg hn]
    generalize (ahead start bytes pos).take n = front at hfront hfrontle hn
    have hresult : front ++
        (readAt (fs.inodes inode) (pos + front.length) (max bufsiz (n - front.length))).take
          (n - front.length) = readAt (fs.inodes inode) pos n := by
      rw [← readAt_append hfrontle hfront]
      rw [readAt, readAt, take_take, Nat.min_eq_left (Nat.le_max_right _ _)]
    refine ⟨pos + front.length, readAt (fs.inodes inode) (pos + front.length)
      (max bufsiz (n - front.length)), ?_, ?_⟩
    · simp [readAt]
    · rw [hresult]

/-- A read returns what the store has at the position of the stream. -/
theorem Coherent.fread {store : Store P} (h : Coherent fs store) (bufsiz : Nat) {content : Bytes}
    (hf : fs.streams f = some ⟨inode, pos, .ahead start bytes⟩) (hp : fs.names p = some inode)
    (hcontent : store p = some content) (n : Nat) :
    ∃ buffer, buffer.mode = .r ∧ Coherent (fs.fread bufsiz f n).2 store ∧
      fs.fread bufsiz f n = (readAt content pos n,
        fs.setStream f ⟨inode, pos + (readAt content pos n).length, buffer⟩) := by
  have hinode : fs.inodes inode = content := by
    rw [h.opened p f _ hf hp, some.injEq] at hcontent
    exact hcontent
  obtain ⟨start', bytes', hahead', hread⟩ :=
    exists_fread_eq bufsiz hf (h.readAhead f _ start bytes hf rfl) n
  rw [hinode] at hread hahead'
  refine ⟨.ahead start' bytes', rfl, ?_, hread⟩
  rw [hread]
  refine h.setStream_of_flush_eq hf rfl ?_ rfl
  rintro start'' bytes'' hbuf
  obtain ⟨rfl, rfl⟩ : start' = start'' ∧ bytes' = bytes'' := by simpa using hbuf
  rw [hinode]
  exact hahead'

end Fs

end Stdio

end PiksiBuildroot.Lib
