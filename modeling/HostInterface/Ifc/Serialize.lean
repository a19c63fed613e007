import HostInterface.Ifc.Struct
import HostInterface.Writer

/-!
# Records to the line (`ifc_struct_defs.c`)

The other direction of `HostInterface.Ifc.Struct`: `write_uint8` to `write_uint64`, and the
serializers of the four records over them. A statement at a time there is no choice of order,
and the bytes written are those a compiler reads that makes the two calls of each `|` from left
to right. With such a compiler, each record is read as it was written and written as it was
read (`records_inverse`). A connection status is cut to a byte.
-/

namespace HostInterface.Ifc

open Reader Writer

/-! ## Integers -/

/-- `write_uint8`. -/
def writeUint8 (x : U8) : Writer U8 Unit := put x

/-- `write_uint16`. -/
def writeUint16 (x : U16) : Writer U8 Unit := do
  writeUint8 ((x >>> 8).setWidth 8)
  writeUint8 (x.setWidth 8)

/-- `write_uint32`. -/
def writeUint32 (x : U32) : Writer U8 Unit := do
  writeUint16 ((x >>> 16).setWidth 16)
  writeUint16 (x.setWidth 16)

/-- `write_uint64`. -/
def writeUint64 (x : U64) : Writer U8 Unit := do
  writeUint32 ((x >>> 32).setWidth 32)
  writeUint32 (x.setWidth 32)

/-- A compiler that makes the left call of each `|` first. -/
def Orders.leftToRight : Orders :=
  ⟨.left, .left, .left⟩

theorem writeUint8_writes (x : U8) : Writes (writeUint8 x) [x] := .put x

theorem writeUint16_writes (x : U16) : Writes (writeUint16 x) (bytes16 .leftToRight x) :=
  .bind (writeUint8_writes _) (writeUint8_writes _)

theorem writeUint32_writes (x : U32) : Writes (writeUint32 x) (bytes32 .leftToRight x) :=
  .bind (writeUint16_writes _) (writeUint16_writes _)

theorem writeUint64_writes (x : U64) : Writes (writeUint64 x) (bytes64 .leftToRight x) :=
  .bind (writeUint32_writes _) (writeUint32_writes _)

/-! ## Records -/

/-- The fields are written into `buff`, and the number of bytes is returned. -/
def serialized (buff : List U8) (fields : Writer U8 Unit) : Option (U16 × List U8) :=
  (fields.run buff).map fun x => (BitVec.ofNat 16 x.1, x.2)

/-- `ll_net_info_serialize`. -/
def llNetInfoSerialize (netInfo : NetworkInfo) (buff : List U8) : Option (U16 × List U8) :=
  serialized buff do
    writeUint32 netInfo.networkIdNode
    writeUint32 netInfo.networkIdGw
    writeUint8 netInfo.gatewayChannel
    writeUint32 netInfo.gatewayFrequency
    writeUint32 netInfo.lastRxTick
    writeUint16 netInfo.rssi
    writeUint8 netInfo.snr
    writeUint8 (netInfo.connectionStatus.setWidth 8)
    writeUint8 netInfo.isScanningGateways
    writeUint64 netInfo.gatewayId

/-- `ll_dl_band_cfg_serialize`. -/
def llDlBandCfgSerialize (dlCfg : DlBandCfg) (buff : List U8) : Option (U16 × List U8) :=
  serialized buff do
    writeUint32 dlCfg.bandEdgeLower
    writeUint32 dlCfg.bandEdgeUpper
    writeUint32 dlCfg.bandEdgeGuard
    writeUint8 dlCfg.chanStepSize
    writeUint8 dlCfg.chanStepOffset

/-- `ll_stats_serialize`. -/
def llStatsSerialize (stats : Stats) (buff : List U8) : Option (U16 × List U8) :=
  serialized buff do
    writeUint32 stats.numSendCalls
    writeUint32 stats.numPktsTransmitted
    writeUint32 stats.numGatewayScans
    writeUint32 stats.numCollisions
    writeUint32 stats.numAckSuccesses
    writeUint32 stats.numAckFailures
    writeUint32 stats.numSyncFailures
    writeUint32 stats.numCanceledPktsAck
    writeUint32 stats.numCanceledPktsCsma
    writeUint32 stats.numRxErrors

/-- `ll_time_serialize`. -/
def llTimeSerialize (timeInfo : TimeInfo) (buff : List U8) : Option (U16 × List U8) :=
  serialized buff do
    writeUint8 timeInfo.syncMode
    writeUint32 timeInfo.curr.seconds
    writeUint16 timeInfo.curr.millis
    writeUint32 timeInfo.lastSync.seconds
    writeUint16 timeInfo.lastSync.millis

/-- The two functions of a record of `n` bytes are inverse: any record is written as exactly `n`
bytes, and their number is returned; a record with `P` is read from them; and any `n` bytes are
read as a record with `P` that is written as these bytes. -/
structure Inverse {α : Type} (P : α → Prop) (n : Nat)
    (serialize : α → List U8 → Option (U16 × List U8)) (deserialize : Reader U8 α) : Prop where
  written : ∀ (x : α) (buff : List U8), n ≤ buff.length →
    ∃ bytes : List U8, bytes.length = n ∧
      serialize x buff = some (BitVec.ofNat 16 n, bytes ++ buff.drop n)
  readBack : ∀ (x : α) (buff : List U8), P x → buff.length = n →
    ∃ buff', serialize x buff = some (BitVec.ofNat 16 n, buff') ∧ deserialize buff' = some (x, [])
  writtenBack : ∀ b : List U8, b.length = n →
    ∃ x, P x ∧ deserialize b = some (x, []) ∧
      ∀ buff : List U8, buff.length = n → serialize x buff = some (BitVec.ofNat 16 n, b)

/-- They are, where the fields are written as they are read. -/
theorem Inverse.of_decodes {α : Type} {P : α → Prop} {n : Nat} {enc : α → List U8}
    {fields : α → Writer U8 Unit} {deserialize : Reader U8 α} (h : Decodes deserialize P n enc)
    (hw : ∀ x, Writes (fields x) (enc x)) :
    Inverse P n (fun x buff => serialized buff (fields x)) deserialize := by
  have hrun : ∀ x (buff : List U8), n ≤ buff.length →
      serialized buff (fields x) = some (BitVec.ofNat 16 n, enc x ++ buff.drop n) := by
    intro x buff hfit
    unfold serialized
    rw [(hw x).run (by rw [h.length]; exact hfit), h.length]
    rfl
  have hfull : ∀ x (buff : List U8), buff.length = n →
      serialized buff (fields x) = some (BitVec.ofNat 16 n, enc x) := by
    intro x buff hlen
    rw [hrun x buff (Nat.le_of_eq hlen.symm), List.drop_of_length_le (Nat.le_of_eq hlen),
      List.append_nil]
  refine ⟨fun x buff hfit => ⟨enc x, h.length x, hrun x buff hfit⟩, fun x buff hx hlen => ?_,
    fun b hb => ?_⟩
  · have hread := h.read_written hx []
    rw [List.append_nil] at hread
    exact ⟨enc x, hfull x buff hlen, hread⟩
  · obtain ⟨x, hx, hread, rfl⟩ := h.written_read hb
    exact ⟨x, hx, hread, hfull x⟩

theorem llNetInfoSerialize_inverse :
    Inverse (fun x => x.connectionStatus.toNat < 256) 30 llNetInfoSerialize
      (llNetInfoDeserialize .leftToRight) := by
  refine .of_decodes (llNetInfoDeserialize_decodes _) fun x => ?_
  refine .bind (writeUint32_writes x.networkIdNode) ?_
  refine .bind (writeUint32_writes x.networkIdGw) ?_
  refine .bind (writeUint8_writes x.gatewayChannel) ?_
  refine .bind (writeUint32_writes x.gatewayFrequency) ?_
  refine .bind (writeUint32_writes x.lastRxTick) ?_
  refine .bind (writeUint16_writes x.rssi) ?_
  refine .bind (writeUint8_writes x.snr) ?_
  refine .bind (writeUint8_writes (x.connectionStatus.setWidth 8)) ?_
  refine .bind (writeUint8_writes x.isScanningGateways) ?_
  exact (writeUint64_writes x.gatewayId).last

theorem llDlBandCfgSerialize_inverse :
    Inverse (fun _ => True) 14 llDlBandCfgSerialize (llDlBandCfgDeserialize .leftToRight) := by
  refine .of_decodes (llDlBandCfgDeserialize_decodes _) fun x => ?_
  refine .bind (writeUint32_writes x.bandEdgeLower) ?_
  refine .bind (writeUint32_writes x.bandEdgeUpper) ?_
  refine .bind (writeUint32_writes x.bandEdgeGuard) ?_
  refine .bind (writeUint8_writes x.chanStepSize) ?_
  exact (writeUint8_writes x.chanStepOffset).last

theorem llStatsSerialize_inverse :
    Inverse (fun _ => True) 40 llStatsSerialize (llStatsDeserialize .leftToRight) := by
  refine .of_decodes (llStatsDeserialize_decodes _) fun x => ?_
  refine .bind (writeUint32_writes x.numSendCalls) ?_
  refine .bind (writeUint32_writes x.numPktsTransmitted) ?_
  refine .bind (writeUint32_writes x.numGatewayScans) ?_
  refine .bind (writeUint32_writes x.numCollisions) ?_
  refine .bind (writeUint32_writes x.numAckSuccesses) ?_
  refine .bind (writeUint32_writes x.numAckFailures) ?_
  refine .bind (writeUint32_writes x.numSyncFailures) ?_
  refine .bind (writeUint32_writes x.numCanceledPktsAck) ?_
  refine .bind (writeUint32_writes x.numCanceledPktsCsma) ?_
  exact (writeUint32_writes x.numRxErrors).last

theorem llTimeSerialize_inverse :
    Inverse (fun _ => True) 13 llTimeSerialize (llTimeDeserialize .leftToRight) := by
  refine .of_decodes (llTimeDeserialize_decodes _) fun x => ?_
  refine .bind (writeUint8_writes x.syncMode) ?_
  refine .bind (writeUint32_writes x.curr.seconds) ?_
  refine .bind (writeUint16_writes x.curr.millis) ?_
  refine .bind (writeUint32_writes x.lastSync.seconds) ?_
  exact (writeUint16_writes x.lastSync.millis).last

/-- **Serializers and deserializers are inverse**, where operands are evaluated left to right. -/
theorem records_inverse :
    Inverse (fun x => x.connectionStatus.toNat < 256) 30 llNetInfoSerialize
        (llNetInfoDeserialize .leftToRight) ∧
      Inverse (fun _ => True) 14 llDlBandCfgSerialize (llDlBandCfgDeserialize .leftToRight) ∧
      Inverse (fun _ => True) 40 llStatsSerialize (llStatsDeserialize .leftToRight) ∧
      Inverse (fun _ => True) 13 llTimeSerialize (llTimeDeserialize .leftToRight) :=
  ⟨llNetInfoSerialize_inverse, llDlBandCfgSerialize_inverse, llStatsSerialize_inverse,
    llTimeSerialize_inverse⟩

end HostInterface.Ifc
