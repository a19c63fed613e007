import HostInterface.Interact.Machine
import HostInterface.Utils

/-!
# The FTP object and its callbacks (`ll_ifc_ftp.h`)

`LlFtp` is `struct ll_ftp` less its callback table, together with the global
`ll_ul_max_port`, the one variable outside the object that the state machine
touches. The seven callbacks and `gettime` are the calls of an interaction
program (`FtpM`): whatever the application and the clock answer is a reply,
so a statement about all runs of an `FtpM` covers every application.

The prefix `ll_ftp_` of the C names is the namespace here: `ll_ftp_init` is
`Ftp.init`, `ll_ftp_msg_process` is `Ftp.msgProcess`.
-/

namespace HostInterface.Ftp

open Interact

/-- `MAX_NUM_SEGMENTS`. -/
abbrev maxNumSegments : Nat := 2400
/-- `MAX_FILE_SEGMENT_BYTES`. -/
abbrev maxFileSegmentBytes : Nat := 107
/-- `BASE_UL_MSG_LEN`. -/
abbrev baseUlMsgLen : Nat := 14
/-- `MAX_NUM_RETRY_SEGS`. -/
abbrev maxNumRetrySegs : Nat := 16
/-- `LL_FTP_HDR_LEN`. -/
abbrev hdrLen : Nat := 16
/-- `LL_FTP_MAX_NUM_RETRIES`. -/
abbrev maxNumRetries : Nat := 5
/-- `LL_FTP_RETRY_INTERVAL`, in seconds. -/
abbrev retryInterval : Int := 16
/-- `LL_FTP_PORT`. -/
abbrev port : U8 := 128#8

/-- `ll_ftp_return_code_t`. -/
inductive RetCode where
  | ok
  | oor
  | invalidValue
  | noAction
  | error
  deriving DecidableEq, Repr

/-- `ll_ftp_state_t`. -/
inductive State where
  | idle
  | segment
  | apply
  deriving DecidableEq, Repr

/-- The bitmap of received segments, `rx_segs`: `NUM_RX_SEGS_BITMASK` words, i.e.
`MAX_NUM_SEGMENTS / 32`. -/
abbrev RxSegs := Vector U32 75

/-- The uplink buffer, `tx_buf`: `LL_FTP_TX_BUF_SIZE` bytes, i.e.
`BASE_UL_MSG_LEN + MAX_NUM_RETRY_SEGS * 2`. -/
abbrev TxBuf := Vector U8 46

/-- `struct ll_ftp` without `cb`, and the global `ll_ul_max_port`. -/
structure LlFtp where
  state : State
  numSegs : U16
  rxSegs : RxSegs
  fileId : U32
  fileVersion : U32
  fileSize : U32
  timeLastMsg : Time
  retryCount : U8
  isProcessing : Bool
  txBuf : TxBuf
  ulMaxPort : U8

/-- What the state machine asks of its surroundings: the callbacks of
`ll_ftp_callbacks_t`, with the arguments they get, and `gettime`. An uplink
also shows `ll_ul_max_port` as it is during the call. -/
inductive Call where
  | open (fileId fileVersion fileSize : U32)
  | read (fileId fileVersion offset : U32) (len : U16)
  | write (fileId fileVersion offset : U32) (payload : Ptr) (len : U16)
  | close (fileId fileVersion : U32)
  | apply (fileId fileVersion fileSize : U32)
  | uplink (buf : List U8) (acked : Bool) (port : U8) (ulMaxPort : U8)
  | config (downlinkOn : Bool)
  | gettime

/-- What comes back: a return code; for `read` also the `len` bytes the payload
buffer holds afterwards; for `gettime` what `*tp` holds afterwards (no caller
in this file looks at the return value). -/
abbrev Reply : Call → Type
  | .read _ _ _ len => RetCode × Vector U8 len.toNat
  | .gettime => Time
  | _ => RetCode

abbrev Ev := Event Reply
abbrev FtpM := Prog Reply

/-- `ll_ftp_callbacks_t` as far as `ll_ftp_init` looks at it: which of the
function pointers are there. -/
structure CallbackTable where
  openCb : Bool
  readCb : Bool
  writeCb : Bool
  closeCb : Bool
  applyCb : Bool
  uplinkCb : Bool
  configCb : Bool

/-- No entry of the table is `NULL`. -/
def CallbackTable.complete (cb : CallbackTable) : Bool :=
  cb.openCb && cb.readCb && cb.writeCb && cb.closeCb && cb.applyCb && cb.uplinkCb && cb.configCb

/-- The fields as `ll_ftp_init` leaves them. -/
def LlFtp.reinit (f : LlFtp) : LlFtp :=
  { f with
    state := .idle
    numSegs := 0
    rxSegs := Vector.replicate 75 0
    fileId := 0
    fileVersion := 0
    fileSize := 0
    timeLastMsg := ⟨0, 0⟩
    retryCount := 0
    isProcessing := false
    txBuf := Vector.replicate 46 0 }

/-- `ll_ftp_init`. The object keeps a copy of the table, which is complete from
then on, so later calls go to callbacks that exist. -/
def init (f : LlFtp) (cb : CallbackTable) : RetCode × LlFtp :=
  if cb.complete then (.ok, f.reinit) else (.invalidValue, f)

/-- `memset(f->rx_segs, 0, ..)`. -/
def LlFtp.clearRxSegs (f : LlFtp) : LlFtp :=
  { f with rxSegs := Vector.replicate 75 0 }

/-- `ll_ftp_state_set`. -/
def LlFtp.stateSet (f : LlFtp) (newState : State) : LlFtp :=
  { f with state := newState }

@[simp] theorem reinit_state (f : LlFtp) : f.reinit.state = .idle := rfl

end HostInterface.Ftp
