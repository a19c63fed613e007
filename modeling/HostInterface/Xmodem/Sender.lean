import HostInterface.Interact.Loop
import HostInterface.Buffer
import HostInterface.Utils

/-!
# The XMODEM sender (`ll_ifc_xmodem.c`)

The payload goes out in packets of 128 bytes, each sent until the module acknowledges
it, then an end of transmission; then the bootloader tells in plain text how it got
on, and the module is rebooted.

Of `transport_read` only its contract is assumed: a result that is not negative means
that the byte asked for is in the buffer. On any other result the buffer may hold
what it held before or not, so a reply carries what it has stored, if anything.

Each loop waits for the other side and has no bound but the clock, and some not
even that. They all take the same `fuel`.
-/

namespace HostInterface.Xmodem

open Interact Prog Buffer

/-- `size_t`. -/
abbrev SizeT := BitVec 64

/-- `TIMEOUT`, in seconds. -/
abbrev timeout : Int := 3
/-- `MAX_ATTEMPTS`. -/
abbrev maxAttempts : Nat := 16
/-- `SOH`. -/
abbrev soh : U8 := 0x01#8
/-- `EOT`. -/
abbrev eot : U8 := 0x04#8
/-- `ACK`. -/
abbrev ack : U8 := 0x06#8
/-- `NAK`. -/
abbrev nak : U8 := 0x15#8
/-- `CAN`. -/
abbrev can : U8 := 0x18#8
/-- `CCC`, the letter C. -/
abbrev ccc : U8 := 0x43#8
/-- The newline. -/
abbrev newline : U8 := 0x0A#8
/-- What a packet is filled up with, `<SUB>`. -/
abbrev sub : U8 := 0x1A#8
/-- The letter r, which reboots the module. -/
abbrev reboot : U8 := 0x72#8
/-- `LL_IFC_ERROR_INCORRECT_PARAMETER`. -/
abbrev errorIncorrectParameter : Int := -101

/-- What `transport_read` of one byte returns, and what it has stored. -/
structure ReadReply where
  ret : Int
  stored : Option U8
  full : 0 ≤ ret → stored.isSome = true

/-- What the sender asks of its surroundings. -/
inductive Call where
  | transportWrite (buf : List U8)
  | transportRead
  | gettime
  | sleepMs (millis : Int)
  | progress (sent total : U32)
  deriving DecidableEq

/-- What comes back; for `gettime` what `*tp` holds afterwards. -/
abbrev Reply : Call → Type
  | .transportWrite _ => Int
  | .transportRead => ReadReply
  | .gettime => Time
  | .sleepMs _ => Int
  | .progress _ _ => Int

abbrev Ev := Event Reply
abbrev XmodemM := Prog Reply

/-- `ll_difftime_from_now`. -/
def llDifftimeFromNow (a : Time) : XmodemM Int :=
  .call .gettime fun b => .done (llDifftime a b)

/-! ## The client's response -/

/-- The bytes `ll_xmodem_get_client_response` waits for. -/
def isResponse (b : U8) : Bool :=
  b = ack || b = nak || b = can || b = ccc || b = newline

/-- One turn of its loop: the result and `*response`, or `*response`. -/
def clientResponseTurn (timeStart : Time) (response : U8) : XmodemM (Turn (Int × U8) U8) :=
  .call .transportRead fun r => do
    let response := r.stored.getD response
    if r.ret < -1 then return .stop (r.ret, response)
    let time ← llDifftimeFromNow timeStart
    if timeout ≤ time then return .stop (-2, response)
    return if isResponse response then .stop (0, response) else .next response

/-- `ll_xmodem_get_client_response`, with what `*response` holds before and after. -/
def getClientResponse (fuel : Nat) (response : U8) : XmodemM (Int × U8) :=
  .call .gettime fun timeStart => iterate (clientResponseTurn timeStart) fuel response

/-! ## Packets and bytes -/

/-- The packet `ll_xmodem_send_packet` builds around the bytes of a payload. -/
def buildPacket (char : PlainChar) (payload : List U8) (packetNumber : U8) : List U8 :=
  let packet := List.replicate 133 sub
  -- Start of Header, Packet Number
  let packet := store packet 0 [soh]
  let packet := store packet 1 [packetNumber &&& 0xff#8]
  let packet := store packet 2 [0xff#8 - packetNumber]
  -- Payload
  let packet := store packet 3 payload
  -- CRC
  let crc := crc16 char ((packet.drop 3).take 128)
  let packet := store packet 132 [(crc &&& 0xff#16).setWidth 8]
  store packet 131 [(crc >>> 8).setWidth 8]

/-- `ll_xmodem_send_packet`. -/
def sendPacket (char : PlainChar) (fuel : Nat) (payload : Ptr) (payloadLen : U16)
    (packetNumber : U8) : XmodemM Int :=
  if 128 < payloadLen.toNat then .done errorIncorrectParameter
  else
    .call (.transportWrite (buildPacket char (payload.bytes payloadLen.toNat) packetNumber))
      fun ret => do
        if ret < 0 then return ret
        let (ret, response) ← getClientResponse fuel 0
        if ret < 0 then return ret
        return (response.toNat : Int)

/-- One turn of the loop of `ll_xmodem_send_byte`, from what `response` holds. -/
def sendByteTurn (fuel : Nat) (byte : U8) (timeStart : Time) (response : U8) :
    XmodemM (Turn Int U8) :=
  .call (.transportWrite [byte]) fun ret => do
    if ret < 0 then return .stop ret
    let (ret, response) ← getClientResponse fuel response
    if ret < 0 then return .stop ret
    let time ← llDifftimeFromNow timeStart
    if timeout ≤ time then return .stop (-2)
    return if response = ack then .stop (response.toNat : Int) else .next response

/-- `ll_xmodem_send_byte`. -/
def sendByte (fuel : Nat) (byte : U8) : XmodemM Int :=
  .call .gettime fun timeStart => iterate (sendByteTurn fuel byte timeStart) fuel 0

/-- One turn of the loop of `ll_xmodem_wait_for`, from what `res` holds. -/
def waitForTurn (fuel : Nat) (response : U8) (timeStart : Time) (res : U8) :
    XmodemM (Turn Int U8) := do
  let (ret, res) ← getClientResponse fuel res
  if ret < 0 then return .stop ret
  let time ← llDifftimeFromNow timeStart
  if timeout ≤ time then return .stop (-2)
  return if response = res then .stop 0 else .next res

/-- `ll_xmodem_wait_for`. -/
def waitFor (fuel : Nat) (response : U8) : XmodemM Int :=
  .call .gettime fun timeStart => iterate (waitForTurn fuel response timeStart) fuel 0

/-! ## The output of the bootloader -/

/-- What is left out of the output. -/
def isFiller (b : U8) : Bool :=
  b = 0x00#8 || b = 0xff#8 || b = newline || b = 0x0D#8

/-- What a read adds to `data`: the byte, if the read succeeds and it is none of those. -/
def ReadReply.kept (r : ReadReply) : List U8 :=
  if 0 ≤ r.ret then r.stored.toList.filter fun b => !isFiller b else []

/-- One turn of the loop of `ll_xmodem_parse_module_output`, from the start of `data`
that is filled. -/
def parseTurn (len : U8) (timeStart : Time) (data : List U8) :
    XmodemM (Turn (Int × List U8) (List U8)) :=
  .call .transportRead fun r => do
    let data := data ++ r.kept
    let time ← llDifftimeFromNow timeStart
    if timeout ≤ time then return .stop (-2, data)
    return if data.length < len.toNat then .next data else .stop (0, data)

/-- `ll_xmodem_parse_module_output`: the result, and what it has stored in `data`. -/
def parseModuleOutput (fuel : Nat) (len : U8) : XmodemM (Int × List U8) :=
  .call .gettime fun timeStart => iterate (parseTurn len timeStart) fuel []

/-- A `char` array of zeros, with `data` stored at its start. -/
def charArray (size : Nat) (data : List U8) : List U8 :=
  data ++ List.replicate (size - data.length) 0

/-- The string in a `char` array, as `strcmp` sees it. -/
def cString (array : List U8) : List U8 :=
  array.takeWhile fun b => b ≠ 0

/-- A string literal without its zero. -/
def ascii (s : String) : List U8 :=
  s.toList.map fun c => BitVec.ofNat 8 c.toNat

/-! ## `ll_xmodem_send` -/

/-- `ll_xmodem_callbacks_t`: whether `progress` is there. -/
structure Callbacks where
  progress : Bool

/-- The variables of the data loop. -/
structure Transfer where
  offset : U32
  packetNumber : U8
  atmptNum : U8

section

variable (char : PlainChar) (fuel : Nat) (payload : Ptr) (payloadLen : SizeT)

/-- `bytes_to_send`. -/
def bytesToSend (offset : U32) : U8 :=
  if 128#64 < payloadLen - offset.setWidth 64 then 128
  else (payloadLen - offset.setWidth 64).setWidth 8

/-- The `switch` of the data loop over what the packet of `bytes` bytes has returned: what
`ll_xmodem_send` returns, or the variables of the next turn. -/
def handleResponse (s : Transfer) (bytes : U8) (ret : Int) : XmodemM (Except Int Transfer) :=
  if ret = ack.toNat then
    let offset := s.offset + bytes.setWidth 32
    .call (.progress offset (payloadLen.setWidth 32)) fun _ =>
      .done (.ok ⟨offset, s.packetNumber + 1, 0⟩)
  else if ret = nak.toNat then
    let s := { s with atmptNum := s.atmptNum + 1 }
    .done (if maxAttempts < s.atmptNum.toNat then .error (-4) else .ok s)
  else if ret = can.toNat then .done (.error (-3))
  else if ret = ccc.toNat then .done (.ok s) -- ignore start byte
  else if ret < 0 then .done (.error ret)
  else .done (.ok s)

/-- One turn of the data loop. -/
def sendTurn (s : Transfer) : XmodemM (Except Int Transfer) := do
  let bytes := bytesToSend payloadLen s.offset
  let ret ← sendPacket char fuel ⟨payload.mem, payload.off + s.offset.toNat⟩ (bytes.setWidth 16)
    s.packetNumber
  handleResponse payloadLen s bytes ret

/-- The end of the loop: an error ends it, and `while (offset < payload_len)`. -/
def whileTest : Except Int Transfer → Turn (Except Int Transfer) Transfer
  | .error ret => .stop (.error ret)
  | .ok s => if s.offset.setWidth 64 < payloadLen then .next s else .stop (.ok s)

/-- The data loop. -/
def sendData : XmodemM (Except Int Transfer) :=
  iterate
    (fun s => do
      let ended ← sendTurn char fuel payload payloadLen s
      return whileTest payloadLen ended)
    fuel ⟨0, 1, 0⟩

/-- The ten seconds, or what is left of them, in which the client is kept informed. -/
def updateClient (offset : U32) : Nat → XmodemM Unit
  | 0 => .done ()
  | i + 1 =>
    .call (.sleepMs 1000) fun _ =>
      .call (.progress offset (payloadLen.setWidth 32)) fun _ => updateClient offset i

/-- `ll_xmodem_send` from the output of the bootloader on. -/
def verifyModule : XmodemM Int := do
  let (_, fwDownloaded) ← parseModuleOutput fuel 19
  let (_, fwVerify) ← parseModuleOutput fuel 14
  let (_, fwActivate) ← parseModuleOutput fuel 17
  if cString (charArray 20 fwDownloaded) ≠ ascii "Firmware downloaded" then return -6
  if cString (charArray 15 fwVerify) ≠ ascii "Verifying...OK" then return -7
  if cString (charArray 18 fwActivate) ≠ ascii "Activating...DONE" then return -8
  -- Reboot the Module
  let ret ← perform (Call.transportWrite [reboot])
  return if ret < 0 then ret else 0

/-- `ll_xmodem_send` from the end of the data loop on. -/
def finishTransfer (offset : U32) : XmodemM Int := do
  let ret ← sendByte fuel eot
  if ret < 0 then return ret
  updateClient payloadLen offset 10
  verifyModule fuel

end

/-- `ll_xmodem_send`; `none` is a `NULL` payload. -/
def xmodemSend (char : PlainChar) (fuel : Nat) (cb : Callbacks) (payload : Option Ptr)
    (payloadLen : SizeT) : XmodemM Int :=
  match payload with
  | none => .done errorIncorrectParameter
  | some payload => do
    if payloadLen < 1 then return errorIncorrectParameter
    if cb.progress = false then return -5
    let ret ← waitFor fuel ccc
    if ret < 0 then return ret
    let ended ← sendData char fuel payload payloadLen
    match ended with
    | .error ret => return ret
    | .ok s => finishTransfer fuel payloadLen s.offset

/-! ## A module for runs on concrete inputs -/

/-- A module that sends the bytes it is given, one a read, and then nothing; the clock
stands still. -/
def replay : (e : Call) → List U8 → Reply e × List U8
  | .transportWrite _, bytes => ((0 : Int), bytes)
  | .transportRead, [] => (⟨-1, none, fun h => absurd h (by decide)⟩, [])
  | .transportRead, b :: bytes => (⟨0, some b, fun _ => rfl⟩, bytes)
  | .gettime, bytes => (⟨0, 0⟩, bytes)
  | .sleepMs _, bytes => ((0 : Int), bytes)
  | .progress _ _, bytes => ((0 : Int), bytes)

/-- What a module sends that takes a payload of one packet. -/
def goodAnswers : List U8 :=
  [ccc, nak, ack, ack] ++ ascii "Firmware downloaded\r\nVerifying...OK\r\nActivating...DONE\r\n"

/-- One byte is sent to it, with success. -/
theorem exec_replay :
    ∃ tr rest, exec replay (xmodemSend .signed 60 ⟨true⟩ (some ⟨fun _ => 7, 0⟩) 1) goodAnswers =
      some (tr, 0, rest) := by
  have hret : (exec replay (xmodemSend .signed 60 ⟨true⟩ (some ⟨fun _ => 7, 0⟩) 1)
      goodAnswers).map (fun x => x.2.1) = some 0 := by decide +kernel
  obtain ⟨⟨tr, ret, rest⟩, hx, rfl⟩ := Option.map_eq_some_iff.mp hret
  exact ⟨tr, rest, hx⟩

end HostInterface.Xmodem
