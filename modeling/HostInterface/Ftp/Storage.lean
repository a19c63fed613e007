import HostInterface.Ftp.Process

/-!
# An application with storage

The callbacks as an application would write them: `write` stores bytes, `read`
returns what is stored, the rest only answers. What is not the state machine's
business is a parameter (`Policy`): the clock, what opening a file makes of its
old contents, and the return code of each call. `storage` is the handler, and
`World` what it keeps.
-/

namespace HostInterface.Ftp

open Interact

/-- The stored bytes, by file id, version and offset, and how often the clock has
been looked at. -/
structure World where
  data : U32 → U32 → Nat → U8
  looks : Nat

/-- How the application answers. -/
structure Policy where
  ret : Call → RetCode
  fresh : U32 → U32 → (Nat → U8) → Nat → U8
  clock : Nat → Time

/-- The contents `c` with `len` bytes of `payload` written at `offset`. -/
def putBytes (c : Nat → U8) (offset : Nat) (payload : Ptr) (len : Nat) : Nat → U8 :=
  fun i => if offset ≤ i ∧ i < offset + len then payload.mem (payload.off + (i - offset)) else c i

/-- The world with other contents of one file. -/
def World.setFile (w : World) (fileId fileVersion : U32) (c : Nat → U8) : World :=
  { w with
    data := fun id version => if id = fileId ∧ version = fileVersion then c else w.data id version }

@[simp] theorem setFile_data (w : World) (fileId fileVersion : U32) (c : Nat → U8) :
    (w.setFile fileId fileVersion c).data fileId fileVersion = c := by
  simp [World.setFile]

/-- The callbacks and the clock of an application with storage. -/
def storage (p : Policy) : (e : Call) → World → Reply e × World
  | .open id version size, w =>
    let ret := p.ret (.open id version size)
    (ret, if ret = .ok then w.setFile id version (p.fresh id version (w.data id version)) else w)
  | .read id version offset len, w =>
    ((p.ret (.read id version offset len),
      Vector.ofFn fun i => w.data id version (offset.toNat + i.val)), w)
  | .write id version offset payload len, w =>
    let ret := p.ret (.write id version offset payload len)
    (ret,
      if ret = .ok then
        w.setFile id version (putBytes (w.data id version) offset.toNat payload len.toNat)
      else w)
  | .close id version, w => (p.ret (.close id version), w)
  | .apply id version size, w => (p.ret (.apply id version size), w)
  | .uplink buf acked port maxPort, w => (p.ret (.uplink buf acked port maxPort), w)
  | .config downlinkOn, w => (p.ret (.config downlinkOn), w)
  | .gettime, w => (p.clock w.looks, { w with looks := w.looks + 1 })

/-- Storage whose reads are OK answers them with what it holds. -/
theorem storage_storing {p : Policy}
    (hread : ∀ id version offset len, p.ret (.read id version offset len) = .ok) (w : World)
    (f : LlFtp) : Storing (storage p) w f (w.data f.fileId f.fileVersion) := by
  intro offset len
  show ((p.ret _, _), w) = _
  rw [hread]

/-- Every callback returns OK, opening keeps the contents, the clock stands still. -/
def Policy.willing : Policy :=
  ⟨fun _ => .ok, fun _ _ c => c, fun _ => ⟨0, 0⟩⟩

/-- The same, but no file can be closed. -/
def Policy.neverCloses : Policy :=
  { Policy.willing with
    ret := fun
      | .close _ _ => .error
      | _ => .ok }

/-- Empty storage. -/
def World.empty : World :=
  ⟨fun _ _ _ => 0, 0⟩

/-! ## Messages for runs on concrete inputs

The smallest file, `(7, 1)` with one byte and one segment, has an image of 17
bytes and messages of 17 and 38 bytes. -/

/-- A message of one type about the file `(fileId, fileVersion)` of `size` bytes, with `rest`
behind the common fields. -/
def fileMsg (type : U8) (fileId fileVersion size : U32) (rest : List U8) : RxBuf :=
  .ofList (sealMsg type (le32 fileId ++ le32 fileVersion ++ le32 size ++ rest))

/-- The 17 bytes of the smallest file, whose one byte is `x`. -/
def tinyImage (x : U8) : List U8 :=
  let rest := le32 1 ++ le32 7 ++ le32 1 ++ [x]
  le32 (crc32 0 rest) ++ rest

/-- `TX_INIT`, `TX_CANCEL` and `TX_APPLY` of the smallest file, and its only `TX_SEGMENT`. -/
def tinyInit : RxBuf := fileMsg 0 7 1 1 []
def tinyCancel : RxBuf := fileMsg 1 7 1 1 []
def tinyApply : RxBuf := fileMsg 2 7 1 1 []
def tinySegment (x : U8) : RxBuf := fileMsg 3 7 1 1 (le16 0 ++ le16 1 ++ tinyImage x)

/-- An object before its first `ll_ftp_init`. -/
def LlFtp.blank : LlFtp :=
  { state := .idle, numSegs := 0, rxSegs := Vector.replicate 75 0, fileId := 0, fileVersion := 0
    fileSize := 0, timeLastMsg := ⟨0, 0⟩, retryCount := 0, isProcessing := false
    txBuf := Vector.replicate 46 0, ulMaxPort := 1 }

/-- A table with all callbacks. -/
def CallbackTable.full : CallbackTable := ⟨true, true, true, true, true, true, true⟩

/-- The history of the inputs under a policy, from `ll_ftp_init` and empty storage. -/
def demo (p : Policy) (inputs : List (Option RxBuf)) : Option (List FtpStep × LlFtp × World) :=
  execAll msgProcess (storage p) LlFtp.blank.reinit inputs .empty

/-- Its steps, where nothing faults. -/
def demoHist (p : Policy) (inputs : List (Option RxBuf)) : List FtpStep :=
  ((demo p inputs).map fun x => x.1).getD []

/-- The object at its end. -/
def demoEnd (p : Policy) (inputs : List (Option RxBuf)) : LlFtp :=
  ((demo p inputs).map fun x => x.2.1).getD LlFtp.blank

/-- What a demonstration shows is a run. -/
theorem demo_run {p : Policy} {inputs : List (Option RxBuf)}
    (h : (demo p inputs).isSome = true) : FtpRun (demoHist p inputs) (demoEnd p inputs) := by
  obtain ⟨⟨hist, f, w⟩, hx⟩ := Option.isSome_iff_exists.mp h
  unfold demoHist demoEnd
  rw [hx]
  exact ⟨.blank, .full, _, rfl, execAll_run .nil hx⟩

end HostInterface.Ftp
