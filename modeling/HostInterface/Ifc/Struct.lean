import HostInterface.Reader
import HostInterface.Utils

/-!
# Records on the line (`ifc_struct_defs.c`)

The module sends its records as a fixed number of bytes, and the host reads them
field by field with `read_uint8` to `read_uint64`. Each of the last three joins the
results of two calls of the one below with `|`, and C leaves open which of the two
calls is made first; the `Orders` of a compiler say so for each of the three.

Whatever they are, a record is read from exactly the bytes that encode it, so two
different buffers are never read as one record: `Decodes` of `HostInterface.Reader`
for each record.

Fields of a signed type are given by their bits, and an enumeration is 32 bits wide.
-/

namespace HostInterface.Ifc

open Reader

abbrev U64 := BitVec 64

/-- In which order the two calls are made in `read_uint16`, `read_uint32`, `read_uint64`. -/
structure Orders where
  u16 : Order
  u32 : Order
  u64 : Order

/-! ## Integers -/

/-- `read_uint8`. -/
def readUint8 : Reader U8 U8 := item

/-- `read_uint16`. -/
def readUint16 (os : Orders) : Reader U8 U16 := do
  let x ← both os.u16 readUint8 readUint8
  return (x.1.setWidth 16 <<< 8) ||| x.2.setWidth 16

/-- `read_uint32`. -/
def readUint32 (os : Orders) : Reader U8 U32 := do
  let x ← both os.u32 (readUint16 os) (readUint16 os)
  return (x.1.setWidth 32 <<< 16) ||| x.2.setWidth 32

/-- `read_uint64`. -/
def readUint64 (os : Orders) : Reader U8 U64 := do
  let x ← both os.u64 (readUint32 os) (readUint32 os)
  return (x.1.setWidth 64 <<< 32) ||| x.2.setWidth 64

/-- The two halves of a word. -/
def halves {w : Nat} (x : BitVec (w + w)) : BitVec w × BitVec w :=
  ((x >>> w).setWidth w, x.setWidth w)

/-- A word is joined from its halves, and from no others. -/
theorem halves_eq_iff {w : Nat} (y : BitVec w × BitVec w) (x : BitVec (w + w)) :
    halves x = y ↔ x = (y.1.setWidth (w + w) <<< w) ||| y.2.setWidth (w + w) := by
  obtain ⟨hi, lo⟩ := y
  have hpow : 2 ^ (w + w) = 2 ^ w * 2 ^ w := Nat.pow_add 2 w w
  have hpos : 0 < 2 ^ w := Nat.two_pow_pos w
  have hhi := hi.isLt
  have hlo := lo.isLt
  have hx := x.isLt
  have hmul : hi.toNat * 2 ^ w + lo.toNat < 2 ^ w * 2 ^ w :=
    calc hi.toNat * 2 ^ w + lo.toNat < hi.toNat * 2 ^ w + 2 ^ w := Nat.add_lt_add_left hlo _
      _ = (hi.toNat + 1) * 2 ^ w := (Nat.succ_mul _ _).symm
      _ ≤ 2 ^ w * 2 ^ w := Nat.mul_le_mul_right _ hhi
  have hwide : ∀ b : BitVec w, b.toNat % 2 ^ (w + w) = b.toNat := fun b =>
    Nat.mod_eq_of_lt (Nat.lt_of_lt_of_le b.isLt (Nat.pow_le_pow_right (by decide) (by omega)))
  have hjoin : ((hi.setWidth (w + w) <<< w) ||| lo.setWidth (w + w)).toNat =
      hi.toNat * 2 ^ w + lo.toNat := by
    rw [BitVec.toNat_or, BitVec.toNat_shiftLeft, BitVec.toNat_setWidth, BitVec.toNat_setWidth,
      hwide, hwide, Nat.mod_eq_of_lt, ← Nat.shiftLeft_add_eq_or_of_lt hlo, Nat.shiftLeft_eq]
    rw [Nat.shiftLeft_eq, hpow]
    omega
  constructor
  · intro h
    obtain ⟨rfl, rfl⟩ := Prod.mk.inj h
    apply BitVec.eq_of_toNat_eq
    rw [hjoin, BitVec.toNat_setWidth, BitVec.toNat_setWidth, BitVec.toNat_ushiftRight,
      Nat.shiftRight_eq_div_pow, Nat.mod_eq_of_lt (Nat.div_lt_of_lt_mul (hpow ▸ hx))]
    exact (Nat.div_add_mod' _ _).symm
  · intro h
    have hval := (congrArg BitVec.toNat h).trans hjoin
    refine Prod.ext (BitVec.eq_of_toNat_eq ?_) (BitVec.eq_of_toNat_eq ?_)
    · show ((x >>> w).setWidth w).toNat = hi.toNat
      rw [BitVec.toNat_setWidth, BitVec.toNat_ushiftRight, Nat.shiftRight_eq_div_pow, hval,
        Nat.add_comm, Nat.add_mul_div_right _ _ hpos, Nat.div_eq_of_lt hlo, Nat.zero_add,
        Nat.mod_eq_of_lt hhi]
    · show (x.setWidth w).toNat = lo.toNat
      rw [BitVec.toNat_setWidth, hval, Nat.mul_add_mod', Nat.mod_eq_of_lt hlo]

/-- The bytes of a word, as they are read. -/
def bytes16 (os : Orders) (x : U16) : List U8 :=
  os.u16.cat [(@halves 8 x).1] [(@halves 8 x).2]

def bytes32 (os : Orders) (x : U32) : List U8 :=
  os.u32.cat (bytes16 os (@halves 16 x).1) (bytes16 os (@halves 16 x).2)

def bytes64 (os : Orders) (x : U64) : List U8 :=
  os.u64.cat (bytes32 os (@halves 32 x).1) (bytes32 os (@halves 32 x).2)

theorem readUint8_decodes : Decodes readUint8 (fun _ => True) 1 fun x => [x] := .item

/-- Two halves in the order of the calls. -/
theorem joined_decodes {w n : Nat} {p q : Reader U8 (BitVec w)} {e₁ e₂ : BitVec w → List U8}
    (o : Order) (hp : Decodes p (fun _ => True) n e₁) (hq : Decodes q (fun _ => True) n e₂) :
    Decodes (do
        let x ← both o p q
        return (x.1.setWidth (w + w) <<< w) ||| x.2.setWidth (w + w))
      (fun _ => True) (n + n) fun x => o.cat (e₁ (halves x).1) (e₂ (halves x).2) :=
  (Decodes.both o hp hq).map fun y x => by rw [true_and, halves_eq_iff]

theorem readUint16_decodes (os : Orders) :
    Decodes (readUint16 os) (fun _ => True) 2 (bytes16 os) :=
  @joined_decodes 8 1 _ _ _ _ os.u16 readUint8_decodes readUint8_decodes

theorem readUint32_decodes (os : Orders) :
    Decodes (readUint32 os) (fun _ => True) 4 (bytes32 os) :=
  @joined_decodes 16 2 _ _ _ _ os.u32 (readUint16_decodes os) (readUint16_decodes os)

theorem readUint64_decodes (os : Orders) :
    Decodes (readUint64 os) (fun _ => True) 8 (bytes64 os) :=
  @joined_decodes 32 4 _ _ _ _ os.u64 (readUint32_decodes os) (readUint32_decodes os)

/-! ## Records -/

/-- `llabs_network_info_t`. -/
structure NetworkInfo where
  networkIdNode : U32
  networkIdGw : U32
  gatewayChannel : U8
  gatewayFrequency : U32
  lastRxTick : U32
  rssi : U16
  snr : U8
  connectionStatus : U32
  isScanningGateways : U8
  gatewayId : U64

/-- `ll_net_info_deserialize`. -/
def llNetInfoDeserialize (os : Orders) : Reader U8 NetworkInfo := do
  let networkIdNode ← readUint32 os
  let networkIdGw ← readUint32 os
  let gatewayChannel ← readUint8
  let gatewayFrequency ← readUint32 os
  let lastRxTick ← readUint32 os
  let rssi ← readUint16 os
  let snr ← readUint8
  let connectionStatus ← readUint8
  let isScanningGateways ← readUint8
  let gatewayId ← readUint64 os
  return {
    networkIdNode, networkIdGw, gatewayChannel, gatewayFrequency, lastRxTick, rssi, snr
    connectionStatus := connectionStatus.setWidth 32
    isScanningGateways, gatewayId }

/-- `llabs_dl_band_cfg_t`. -/
structure DlBandCfg where
  bandEdgeLower : U32
  bandEdgeUpper : U32
  bandEdgeGuard : U32
  chanStepSize : U8
  chanStepOffset : U8

/-- `ll_dl_band_cfg_deserialize`. -/
def llDlBandCfgDeserialize (os : Orders) : Reader U8 DlBandCfg := do
  let bandEdgeLower ← readUint32 os
  let bandEdgeUpper ← readUint32 os
  let bandEdgeGuard ← readUint32 os
  let chanStepSize ← readUint8
  let chanStepOffset ← readUint8
  return { bandEdgeLower, bandEdgeUpper, bandEdgeGuard, chanStepSize, chanStepOffset }

/-- `llabs_stats_t`. -/
structure Stats where
  numSendCalls : U32
  numPktsTransmitted : U32
  numGatewayScans : U32
  numCollisions : U32
  numAckSuccesses : U32
  numAckFailures : U32
  numSyncFailures : U32
  numCanceledPktsAck : U32
  numCanceledPktsCsma : U32
  numRxErrors : U32

/-- `ll_stats_deserialize`. -/
def llStatsDeserialize (os : Orders) : Reader U8 Stats := do
  let numSendCalls ← readUint32 os
  let numPktsTransmitted ← readUint32 os
  let numGatewayScans ← readUint32 os
  let numCollisions ← readUint32 os
  let numAckSuccesses ← readUint32 os
  let numAckFailures ← readUint32 os
  let numSyncFailures ← readUint32 os
  let numCanceledPktsAck ← readUint32 os
  let numCanceledPktsCsma ← readUint32 os
  let numRxErrors ← readUint32 os
  return {
    numSendCalls, numPktsTransmitted, numGatewayScans, numCollisions, numAckSuccesses
    numAckFailures, numSyncFailures, numCanceledPktsAck, numCanceledPktsCsma, numRxErrors }

/-- `llabs_time_t`. -/
structure LlabsTime where
  seconds : U32
  millis : U16

/-- `llabs_time_info_t`. -/
structure TimeInfo where
  syncMode : U8
  curr : LlabsTime
  lastSync : LlabsTime

/-- `ll_time_deserialize`. -/
def llTimeDeserialize (os : Orders) : Reader U8 TimeInfo := do
  let syncMode ← readUint8
  let currSeconds ← readUint32 os
  let currMillis ← readUint16 os
  let lastSyncSeconds ← readUint32 os
  let lastSyncMillis ← readUint16 os
  return {
    syncMode
    curr := ⟨currSeconds, currMillis⟩
    lastSync := ⟨lastSyncSeconds, lastSyncMillis⟩ }

/-- The bytes of network information. -/
def NetworkInfo.bytes (os : Orders) (x : NetworkInfo) : List U8 :=
  bytes32 os x.networkIdNode ++ (bytes32 os x.networkIdGw ++ ([x.gatewayChannel] ++
    (bytes32 os x.gatewayFrequency ++ (bytes32 os x.lastRxTick ++ (bytes16 os x.rssi ++
      ([x.snr] ++ ([x.connectionStatus.setWidth 8] ++ ([x.isScanningGateways] ++
        (bytes64 os x.gatewayId ++ [])))))))))

def DlBandCfg.bytes (os : Orders) (x : DlBandCfg) : List U8 :=
  bytes32 os x.bandEdgeLower ++ (bytes32 os x.bandEdgeUpper ++ (bytes32 os x.bandEdgeGuard ++
    ([x.chanStepSize] ++ ([x.chanStepOffset] ++ []))))

def Stats.bytes (os : Orders) (x : Stats) : List U8 :=
  bytes32 os x.numSendCalls ++ (bytes32 os x.numPktsTransmitted ++ (bytes32 os x.numGatewayScans ++
    (bytes32 os x.numCollisions ++ (bytes32 os x.numAckSuccesses ++ (bytes32 os x.numAckFailures ++
      (bytes32 os x.numSyncFailures ++ (bytes32 os x.numCanceledPktsAck ++
        (bytes32 os x.numCanceledPktsCsma ++ (bytes32 os x.numRxErrors ++ [])))))))))

def TimeInfo.bytes (os : Orders) (x : TimeInfo) : List U8 :=
  [x.syncMode] ++ (bytes32 os x.curr.seconds ++ (bytes16 os x.curr.millis ++
    (bytes32 os x.lastSync.seconds ++ (bytes16 os x.lastSync.millis ++ []))))

theorem llDlBandCfgDeserialize_decodes (os : Orders) :
    Decodes (llDlBandCfgDeserialize os) (fun _ => True) 14 (DlBandCfg.bytes os) := by
  unfold llDlBandCfgDeserialize DlBandCfg.bytes
  show Decodes _ _ (4 + (4 + (4 + (1 + (1 + 0))))) _
  refine .bind DlBandCfg.bandEdgeLower (readUint32_decodes os) fun lower => ?_
  refine .bind DlBandCfg.bandEdgeUpper (readUint32_decodes os) fun upper => ?_
  refine .bind DlBandCfg.bandEdgeGuard (readUint32_decodes os) fun guard => ?_
  refine .bind DlBandCfg.chanStepSize readUint8_decodes fun size => ?_
  refine .bind DlBandCfg.chanStepOffset readUint8_decodes fun offset => ?_
  refine .pure fun y => ?_
  cases y
  simp [and_assoc]

theorem llStatsDeserialize_decodes (os : Orders) :
    Decodes (llStatsDeserialize os) (fun _ => True) 40 (Stats.bytes os) := by
  unfold llStatsDeserialize Stats.bytes
  show Decodes _ _ (4 + (4 + (4 + (4 + (4 + (4 + (4 + (4 + (4 + (4 + 0)))))))))) _
  refine .bind Stats.numSendCalls (readUint32_decodes os) fun numSendCalls => ?_
  refine .bind Stats.numPktsTransmitted (readUint32_decodes os) fun numPktsTransmitted => ?_
  refine .bind Stats.numGatewayScans (readUint32_decodes os) fun numGatewayScans => ?_
  refine .bind Stats.numCollisions (readUint32_decodes os) fun numCollisions => ?_
  refine .bind Stats.numAckSuccesses (readUint32_decodes os) fun numAckSuccesses => ?_
  refine .bind Stats.numAckFailures (readUint32_decodes os) fun numAckFailures => ?_
  refine .bind Stats.numSyncFailures (readUint32_decodes os) fun numSyncFailures => ?_
  refine .bind Stats.numCanceledPktsAck (readUint32_decodes os) fun numCanceledPktsAck => ?_
  refine .bind Stats.numCanceledPktsCsma (readUint32_decodes os) fun numCanceledPktsCsma => ?_
  refine .bind Stats.numRxErrors (readUint32_decodes os) fun numRxErrors => ?_
  refine .pure fun y => ?_
  cases y
  simp [and_assoc]

theorem llTimeDeserialize_decodes (os : Orders) :
    Decodes (llTimeDeserialize os) (fun _ => True) 13 (TimeInfo.bytes os) := by
  unfold llTimeDeserialize TimeInfo.bytes
  show Decodes _ _ (1 + (4 + (2 + (4 + (2 + 0))))) _
  refine .bind TimeInfo.syncMode readUint8_decodes fun syncMode => ?_
  refine (Decodes.bind (fun x : TimeInfo => x.curr.seconds) (readUint32_decodes os)
    fun seconds => ?_ :)
  refine (Decodes.bind (fun x : TimeInfo => x.curr.millis) (readUint16_decodes os)
    fun millis => ?_ :)
  refine (Decodes.bind (fun x : TimeInfo => x.lastSync.seconds) (readUint32_decodes os)
    fun lastSeconds => ?_ :)
  refine (Decodes.bind (fun x : TimeInfo => x.lastSync.millis) (readUint16_decodes os)
    fun lastMillis => ?_ :)
  refine .pure fun y => ?_
  obtain ⟨_, ⟨_, _⟩, ⟨_, _⟩⟩ := y
  simp [and_assoc]

/-- A byte read into an enumeration. -/
theorem widened_iff {x : U32} {b : U8} :
    x.toNat < 256 ∧ x.setWidth 8 = b ↔ x = b.setWidth 32 := by
  constructor
  · rintro ⟨hlt, rfl⟩
    apply BitVec.eq_of_toNat_eq
    rw [BitVec.toNat_setWidth, BitVec.toNat_setWidth]
    omega
  · rintro rfl
    have hb := b.isLt
    refine ⟨?_, BitVec.eq_of_toNat_eq ?_⟩
    · rw [BitVec.toNat_setWidth]
      omega
    · rw [BitVec.toNat_setWidth, BitVec.toNat_setWidth]
      omega

/-- The connection status is read from a byte, so it is below 256. -/
theorem llNetInfoDeserialize_decodes (os : Orders) :
    Decodes (llNetInfoDeserialize os) (fun x => x.connectionStatus.toNat < 256) 30
      (NetworkInfo.bytes os) := by
  unfold llNetInfoDeserialize NetworkInfo.bytes
  show Decodes _ _ (4 + (4 + (1 + (4 + (4 + (2 + (1 + (1 + (1 + (8 + 0)))))))))) _
  refine .bind NetworkInfo.networkIdNode (readUint32_decodes os) fun networkIdNode => ?_
  refine .bind NetworkInfo.networkIdGw (readUint32_decodes os) fun networkIdGw => ?_
  refine .bind NetworkInfo.gatewayChannel readUint8_decodes fun gatewayChannel => ?_
  refine .bind NetworkInfo.gatewayFrequency (readUint32_decodes os) fun gatewayFrequency => ?_
  refine .bind NetworkInfo.lastRxTick (readUint32_decodes os) fun lastRxTick => ?_
  refine .bind NetworkInfo.rssi (readUint16_decodes os) fun rssi => ?_
  refine .bind NetworkInfo.snr readUint8_decodes fun snr => ?_
  refine (Decodes.bind (fun x : NetworkInfo => x.connectionStatus.setWidth 8) readUint8_decodes
    fun connectionStatus => ?_ :)
  refine .bind NetworkInfo.isScanningGateways readUint8_decodes fun isScanningGateways => ?_
  refine .bind NetworkInfo.gatewayId (readUint64_decodes os) fun gatewayId => ?_
  refine .pure fun y => ?_
  have hstatus := @widened_iff y.connectionStatus connectionStatus
  cases y
  simp only [NetworkInfo.mk.injEq, ← hstatus]
  constructor
  · rintro ⟨⟨⟨⟨⟨⟨⟨⟨⟨⟨h, h₁⟩, h₂⟩, h₃⟩, h₄⟩, h₅⟩, h₆⟩, h₇⟩, h₈⟩, h₉⟩, h₁₀⟩
    exact ⟨h₁, h₂, h₃, h₄, h₅, h₆, h₇, ⟨h, h₈⟩, h₉, h₁₀⟩
  · rintro ⟨h₁, h₂, h₃, h₄, h₅, h₆, h₇, ⟨h, h₈⟩, h₉, h₁₀⟩
    exact ⟨⟨⟨⟨⟨⟨⟨⟨⟨⟨h, h₁⟩, h₂⟩, h₃⟩, h₄⟩, h₅⟩, h₆⟩, h₇⟩, h₈⟩, h₉⟩, h₁₀⟩

end HostInterface.Ifc
