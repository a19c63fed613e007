import HostInterface.Interact.Layer
import HostInterface.Ifc.Disclosure
import HostInterface.Ifc.Remote
import HostInterface.Pc.Transport

/-!
# The library on the serial port

A serial port hands over what has arrived in pieces of any size. `port` is such a device: its
`k`th read gives at most `chunk k + 1` bytes, and where there are none, `select` runs into its
timeout. With `pcTransport` in between, the library cannot tell it from the stream of
`HostInterface.Ifc.Grammar` that runs dry in one particular way, `spent` (`port_implements`). So
what is proved on streams holds on the port, however the bytes are split.

Where the line is closed at its end instead, as for an adapter that has been pulled out,
`select` finds it readable for ever and `read` returns 0. Then `transport_read` does not return,
and a call of the library returns exactly where it does on the stream without reading past the
end of it (`halReadWrite_port_iff`).
-/

namespace HostInterface.Pc

open Interact Prog Ifc

/-- A serial port: how many bytes more than one each read gives at most, the clock, and whether
the line is closed behind its last byte. -/
structure Device where
  chunk : Nat → Nat
  clock : Nat → Int × Timeval
  closed : Bool

/-- What has not been read, the looks at the clock and the reads so far. -/
structure Fd where
  rest : List U8
  looks : Nat
  reads : Nat

/-- The next bytes, as many as a read gets. -/
def Fd.next (d : Device) (s : Fd) (len : Nat) : List U8 :=
  s.rest.take (min len (d.chunk s.reads + 1))

theorem Fd.next_fits (d : Device) (s : Fd) (len : Nat) : (s.next d len).length ≤ len := by
  unfold Fd.next
  rw [List.length_take]
  omega

/-- The read that gets them. -/
def Fd.read (d : Device) (s : Fd) (len : Nat) : SysRead len :=
  ⟨(s.next d len).length, s.next d len, s.next_fits d len, fun _ => rfl⟩

/-- The device. -/
def port (d : Device) : (e : Sys) → Fd → SysReply e × Fd
  | .write buf, s => ((buf.length : Int), s)
  | .select _, s => (if s.rest = [] ∧ d.closed = false then (0 : Int) else (1 : Int), s)
  | .read len, s =>
    (s.read d len, { s with rest := s.rest.drop (s.next d len).length, reads := s.reads + 1 })
  | .gettimeofday, s => (d.clock s.looks, { s with looks := s.looks + 1 })
  | .nanosleep _ _, s => ((0 : Int), s)

/-- The clock as `gettime` reads it. -/
def Device.time (d : Device) (tp : Time) (i : Nat) : Int × Time :=
  if (d.clock i).1 ≠ 0 then ((d.clock i).1, tp)
  else (0, ⟨(d.clock i).2.tvSec, (d.clock i).2.tvUsec * 1000⟩)

/-- The read that runs into its timeout has taken all there was. -/
def spent : Starve :=
  fun len s => (⟨-1, s.rest.take len.toNat, List.length_take_le .., fun h => absurd h (by decide)⟩,
    [])

/-! ## One call of `transport_read` -/

section Read

variable {d : Device} {len : Nat} {got : Got len} {s : Fd}

/-- The state behind a read of so many bytes. -/
def Fd.behind (d : Device) (s : Fd) (n : Nat) : Fd :=
  { s with rest := s.rest.drop (s.next d n).length, reads := s.reads + 1 }

/-- A piece, and what is then missing, are what was missing. -/
theorem Fd.next_take (d : Device) (s : Fd) (n : Nat) :
    s.next d n ++ (s.behind d n).rest.take (n - (s.next d n).length) = s.rest.take n := by
  have hle := s.next_fits d n
  have hnext : s.next d n = s.rest.take (s.next d n).length := by
    unfold Fd.next
    rw [List.length_take, List.take_eq_take_min]
  show _ ++ (s.rest.drop _).take _ = _
  generalize (s.next d n).length = m at *
  have htake : s.rest.take m = (s.rest.take n).take m := by
    rw [List.take_take, Nat.min_eq_left hle]
  rw [hnext, ← List.drop_take, htake]
  exact List.take_append_drop m _

/-- A piece is not empty where there is something to read. -/
theorem Fd.next_pos {n : Nat} (hn : 0 < n) (hs : s.rest ≠ []) : 0 < (s.next d n).length := by
  have hpos := List.length_pos_iff.mpr hs
  unfold Fd.next
  rw [List.length_take]
  omega

theorem readWithTimeout_ready {n sec : Nat} (hs : s.rest ≠ [] ∨ d.closed = true) :
    Ends (port d) (readWithTimeout n sec) s (s.read d n) (s.behind d n) := by
  have hready : ¬ (s.rest = [] ∧ d.closed = false) := fun h => by
    rcases hs with hs | hs
    · exact hs h.1
    · rw [h.2] at hs
      cases hs
  refine .call ?_
  have hselect : port d (.select sec) s = ((1 : Int), s) := Prod.ext (if_neg hready) rfl
  rw [hselect]
  dsimp only
  rw [if_neg (show ¬ (1 : Int) = -1 by decide), if_neg (show ¬ (1 : Int) = 0 by decide)]
  exact .call (.done _ _)

theorem readWithTimeout_silent {n sec : Nat} (hs : s.rest = []) (hopen : d.closed = false) :
    Ends (port d) (readWithTimeout n sec) s .failed s := by
  refine .call ?_
  have hselect : port d (.select sec) s = ((0 : Int), s) := Prod.ext (if_pos ⟨hs, hopen⟩) rfl
  rw [hselect]
  dsimp only
  rw [if_neg (show ¬ (0 : Int) = -1 by decide), if_pos rfl]
  exact .done _ _

/-- A turn that reads a piece. -/
theorem turn_ready (hs : s.rest ≠ [] ∨ d.closed = true) :
    Ends (port d) (transportReadTurn got) s
      (if h : (got.more (s.read d (len - got.bytes.length))).bytes.length < len then
        .next (got.more (s.read d (len - got.bytes.length)))
      else .stop ((got.more (s.read d (len - got.bytes.length))).complete h))
      (s.behind d (len - got.bytes.length)) := by
  have hret : ¬ (s.read d (len - got.bytes.length)).ret < 0 := Int.not_lt.mpr (Int.natCast_nonneg _)
  refine (readWithTimeout_ready hs).bind ?_
  rw [dif_neg hret]
  split
  next => exact .done _ _
  next => exact .done _ _

/-- With enough bytes, the buffer is filled with the next ones, in however many pieces. -/
theorem read_enough {fuel : Nat} (hmissing : got.bytes.length < len)
    (hfuel : len ≤ fuel + got.bytes.length) (henough : len ≤ s.rest.length + got.bytes.length) :
    ∃ r reads, Ends (port d) (iterate transportReadTurn fuel got) s r
        ⟨s.rest.drop (len - got.bytes.length), s.looks, reads⟩ ∧
      r.ret = 0 ∧ r.stored = got.bytes ++ s.rest.take (len - got.bytes.length) := by
  induction fuel generalizing got s with
  | zero => omega
  | succ fuel ih =>
    have hne : s.rest ≠ [] := by
      rintro hnil
      rw [hnil, List.length_nil] at henough
      omega
    have hpos := @Fd.next_pos d s (len - got.bytes.length) (by omega) hne
    have hfits := s.next_fits d (len - got.bytes.length)
    have htake := s.next_take d (len - got.bytes.length)
    have hturn := @turn_ready d len got s (.inl hne)
    have hlen : (got.more (s.read d (len - got.bytes.length))).bytes.length =
        got.bytes.length + (s.next d (len - got.bytes.length)).length := List.length_append
    have hrest : (s.behind d (len - got.bytes.length)).rest.length =
        s.rest.length - (s.next d (len - got.bytes.length)).length := List.length_drop
    split at hturn
    next hmore =>
      -- The piece is not the last one.
      obtain ⟨r, reads, hends, hret, hstored⟩ := ih (s := s.behind d (len - got.bytes.length)) hmore
        (by omega) (by omega)
      refine ⟨r, reads, hturn.bind ?_, hret, ?_⟩
      · have hdrop : (s.behind d (len - got.bytes.length)).rest.drop
            (len - (got.more (s.read d (len - got.bytes.length))).bytes.length) =
            s.rest.drop (len - got.bytes.length) := by
          show (s.rest.drop _).drop _ = _
          rw [List.drop_drop, hlen]
          congr 1
          omega
        rw [hdrop] at hends
        exact hends
      · rw [hstored, hlen, ← htake]
        show (got.bytes ++ s.next d (len - got.bytes.length)) ++ _ = _
        rw [List.append_assoc, Nat.sub_add_eq]
    next hfull =>
      have hall : (s.next d (len - got.bytes.length)).length = len - got.bytes.length := by omega
      have hbehind : s.behind d (len - got.bytes.length) =
          ⟨s.rest.drop (len - got.bytes.length), s.looks, s.reads + 1⟩ := by
        unfold Fd.behind
        rw [hall]
      rw [hbehind] at hturn
      refine ⟨(got.more _).complete hfull, _, hturn.bind (.done _ _), rfl, ?_⟩
      rw [← htake, hall, Nat.sub_self, List.take_zero, List.append_nil]
      rfl

/-- A turn that runs into the timeout. -/
theorem turn_silent (hs : s.rest = []) (hopen : d.closed = false) :
    Ends (port d) (transportReadTurn got) s (.stop (got.failed .failed SysRead.failed_ret)) s := by
  have hneg : (SysRead.failed : SysRead (len - got.bytes.length)).ret < 0 := SysRead.failed_ret
  refine (readWithTimeout_silent hs hopen).bind ?_
  rw [dif_pos hneg]
  exact .done _ _

/-- Without enough bytes, a piece leaves the buffer with room. -/
theorem more_short (hshort : s.rest.length + got.bytes.length < len) :
    (got.more (s.read d (len - got.bytes.length))).bytes.length < len ∧
      (s.behind d (len - got.bytes.length)).rest.length +
        (got.more (s.read d (len - got.bytes.length))).bytes.length < len := by
  have hle : (s.next d (len - got.bytes.length)).length ≤ s.rest.length := List.length_take_le' ..
  have hlen : (got.more (s.read d (len - got.bytes.length))).bytes.length =
      got.bytes.length + (s.next d (len - got.bytes.length)).length := List.length_append
  have hrest : (s.behind d (len - got.bytes.length)).rest.length =
      s.rest.length - (s.next d (len - got.bytes.length)).length := List.length_drop
  omega

/-- Without enough bytes, all there are have been taken when the timeout comes. -/
theorem read_silent (hopen : d.closed = false) {fuel : Nat} (hfuel : s.rest.length < fuel)
    (hshort : s.rest.length + got.bytes.length < len) :
    ∃ r reads, Ends (port d) (iterate transportReadTurn fuel got) s r ⟨[], s.looks, reads⟩ ∧
      r.ret = -1 ∧ r.stored = got.bytes ++ s.rest := by
  induction fuel generalizing got s with
  | zero => omega
  | succ fuel ih =>
    by_cases hs : s.rest = []
    · have hstate : s = ⟨[], s.looks, s.reads⟩ := by
        rw [← hs]
      have hturn := @turn_silent d len got s hs hopen
      refine ⟨got.failed .failed SysRead.failed_ret, s.reads, ?_, rfl, ?_⟩
      · rw [← hstate]
        exact hturn.bind (.done _ _)
      · rw [hs]
        rfl
    · have hpos := @Fd.next_pos d s (len - got.bytes.length) (by omega) hs
      have hne := List.length_pos_iff.mpr hs
      have hrest : (s.behind d (len - got.bytes.length)).rest.length =
          s.rest.length - (s.next d (len - got.bytes.length)).length := List.length_drop
      obtain ⟨hmore, hshort'⟩ := @more_short d len got s hshort
      have hturn := @turn_ready d len got s (.inl hs)
      rw [dif_pos hmore] at hturn
      obtain ⟨r, reads, hends, hret, hstored⟩ :=
        ih (s := s.behind d (len - got.bytes.length)) (by omega) hshort'
      refine ⟨r, reads, hturn.bind hends, hret, ?_⟩
      rw [hstored]
      have hnext : s.next d (len - got.bytes.length) ++ (s.behind d (len - got.bytes.length)).rest =
          s.rest := by
        have htake := s.next_take d (len - got.bytes.length)
        rw [List.take_of_length_le (by omega), List.take_of_length_le (by omega)] at htake
        exact htake
      show (got.bytes ++ s.next d (len - got.bytes.length)) ++ _ = _
      rw [List.append_assoc, hnext]

/-- On a closed line without enough bytes, it goes on for ever. -/
theorem read_hungUp (hclosed : d.closed = true) {fuel : Nat}
    (hshort : s.rest.length + got.bytes.length < len) (r : ReadReply len) (s' : Fd) :
    ¬ Ends (port d) (iterate transportReadTurn fuel got) s r s' := by
  induction fuel generalizing got s with
  | zero =>
    intro h
    obtain ⟨tr, htr⟩ := h
    cases htr
  | succ fuel ih =>
    intro h
    obtain ⟨hmore, hshort'⟩ := @more_short d len got s hshort
    have hturn := @turn_ready d len got s (.inr hclosed)
    rw [dif_pos hmore] at hturn
    obtain ⟨t, s₁, ht, hrest⟩ := ends_bind.mp h
    obtain ⟨rfl, rfl⟩ := ht.unique hturn
    exact ih hshort' hrest

end Read

/-! ## The library on the port -/

/-- Two replies with the same result and the same bytes. -/
theorem readReply_eq {len : Nat} {r r' : ReadReply len} (hret : r.ret = r'.ret)
    (hstored : r.stored = r'.stored) : r = r' := by
  cases r
  cases r'
  cases hret
  cases hstored
  rfl

/-- A read asks for at least one byte. -/
def Asks : Call → Prop
  | .transportRead len => len ≠ 0
  | _ => True

/-- What a write returns is not looked at. -/
def Unseen : (e : Call) → Reply e → Reply e → Prop
  | .transportWrite _, _, _ => True
  | .transportRead _, r, r' => r = r'
  | .gettime, r, r' => r = r'

/-- The port and the stream have the same bytes to come, and the same time; a closed line has
not been read past its end. -/
structure SameLine (d : Device) (s : Stream) (t : Fd) : Prop where
  rest : t.rest = s.rest
  looks : t.looks = s.looks
  fed : d.closed = true → s.starved = false

/-- A closed line has been read past its end. -/
def ReadPast (d : Device) (s : Stream) : Prop :=
  d.closed = true ∧ s.starved = true

section Library

variable {d : Device} {fuel : Nat} {tp : Time} {α : Type} {p : IfcM α}

/-- A read for which there are enough bytes. -/
theorem transportRead_enough {len : U16} {t : Fd} (hfuel : 65536 ≤ fuel) (hlen : len ≠ 0)
    (henough : len.toNat ≤ t.rest.length) :
    ∃ reads, Ends (port d) (transportRead fuel len) t
      (.ok (t.rest.take len.toNat) (List.length_take_of_le henough))
      ⟨t.rest.drop len.toNat, t.looks, reads⟩ := by
  have hpos : len.toNat ≠ 0 := fun h => hlen (BitVec.eq_of_toNat_eq h)
  have hlt := len.isLt
  obtain ⟨r, reads, hends, hret, hstored⟩ := @read_enough d len.toNat (.nothing _) t fuel
    (Nat.pos_of_ne_zero hpos) (by omega) henough
  have hr : r = .ok (t.rest.take len.toNat) (List.length_take_of_le henough) :=
    readReply_eq hret hstored
  rw [hr] at hends
  exact ⟨reads, hends⟩

/-- A read for which there are not. -/
theorem transportRead_short (hopen : d.closed = false) {len : U16} {s : Stream} {t : Fd}
    (hfuel : 65536 ≤ fuel) (hrest : t.rest = s.rest) (hshort : s.rest.length < len.toNat) :
    ∃ reads, Ends (port d) (transportRead fuel len) t (spent len s).1 ⟨[], t.looks, reads⟩ := by
  have hlt := len.isLt
  have hshort' : t.rest.length < len.toNat := by
    rw [hrest]
    exact hshort
  obtain ⟨r, reads, hends, hret, hstored⟩ := @read_silent d len.toNat (.nothing _) t hopen
    fuel (by omega) hshort'
  have hr : r = (spent len s).1 := by
    refine readReply_eq hret (hstored.trans ?_)
    show t.rest = s.rest.take len.toNat
    rw [hrest, List.take_of_length_le (Nat.le_of_lt hshort)]
  rw [hr] at hends
  exact ⟨reads, hends⟩

/-- **The port is a stream**, whose reads behind its end fail, or never return. -/
theorem port_implements (hfuel : 65536 ≤ fuel) :
    Implements (stream (d.time tp) spent) (port d) Asks Unseen (SameLine d) (ReadPast d)
      (pcTransport fuel tp) where
  step e s t he hst := by
    cases e with
    | transportWrite buf =>
      exact .inl ⟨_, t, .call (.done _ _), trivial, hst⟩
    | gettime =>
      refine .inl ⟨d.time tp s.looks, { t with looks := t.looks + 1 }, .call ?_, rfl,
        ⟨hst.rest, congrArg (· + 1) hst.looks, hst.fed⟩⟩
      have hclock : port d .gettimeofday t = (d.clock s.looks, { t with looks := t.looks + 1 }) := by
        rw [← hst.looks]
        rfl
      rw [hclock]
      unfold Device.time
      dsimp only
      split
      next => exact .done _ _
      next => exact .done _ _
    | transportRead len =>
      by_cases h : len.toNat ≤ s.rest.length
      · have heq : stream (d.time tp) spent (.transportRead len) s =
            (.ok (s.rest.take len.toNat) (List.length_take_of_le h),
              { s with rest := s.rest.drop len.toNat }) := by
          unfold stream
          simp only [dif_pos h]
        rw [heq]
        obtain ⟨rest, looks, reads⟩ := t
        obtain ⟨rfl, rfl, hfed⟩ := hst
        obtain ⟨reads', hends⟩ := @transportRead_enough d fuel len ⟨s.rest, s.looks, reads⟩ hfuel he h
        exact .inl ⟨_, _, hends, rfl, ⟨rfl, rfl, hfed⟩⟩
      · have heq : stream (d.time tp) spent (.transportRead len) s =
            ((spent len s).1, { s with rest := (spent len s).2, starved := true }) := by
          unfold stream
          simp only [dif_neg h]
        rw [heq]
        have hshort := Nat.lt_of_not_le h
        cases hclosed : d.closed with
        | false =>
          obtain ⟨reads, hends⟩ := transportRead_short hclosed hfuel hst.rest hshort
          refine .inl ⟨_, _, hends, rfl, ⟨rfl, hst.looks, fun h => ?_⟩⟩
          rw [hclosed] at h
          cases h
        | true =>
          refine .inr ⟨fun r t' => read_hungUp hclosed ?_ r t', hclosed, rfl⟩
          rw [hst.rest]
          exact hshort
  forGood e s hs := by
    refine ⟨hs.1, ?_⟩
    cases e with
    | transportWrite buf => exact hs.2
    | gettime => exact hs.2
    | transportRead len =>
      unfold stream
      dsimp only
      split
      next => exact hs.2
      next => rfl
  apart s t hst hs := by
    obtain ⟨hclosed, hstarved⟩ := hs
    rw [hst.fed hclosed] at hstarved
    exact Bool.false_ne_true hstarved

/-- What can be run on the port: every read asks for something, and what a write returns is not
looked at. -/
structure Portable (p : IfcM α) : Prop where
  asks : p.Only Asks
  blind : p.Blind Unseen

/-- Every such program does on the port what it does on the stream. -/
theorem Portable.ends_iff (hp : Portable p) (hfuel : 65536 ≤ fuel) {B rest : List U8}
    {looks looks' reads : Nat} {a : α} :
    (∃ reads', Ends (port d) (interp (pcTransport fuel tp) p) ⟨B, looks, reads⟩ a
        ⟨rest, looks', reads'⟩) ↔
      ∃ starved, Ends (stream (d.time tp) spent) p ⟨B, looks, false⟩ a ⟨rest, looks', starved⟩ ∧
        (d.closed = true → starved = false) := by
  have hport := @port_implements d fuel tp hfuel
  have hsame : SameLine d ⟨B, looks, false⟩ ⟨B, looks, reads⟩ := ⟨rfl, rfl, fun _ => rfl⟩
  constructor
  · intro h
    obtain ⟨reads', hends⟩ := h
    obtain ⟨⟨rest', looks'', starved⟩, habove, hrest, hlooks, hfed⟩ :=
      hport.ends_above hp.asks hp.blind hsame hends
    obtain rfl : rest = rest' := hrest
    obtain rfl : looks' = looks'' := hlooks
    exact ⟨starved, habove, hfed⟩
  · intro h
    obtain ⟨starved, hends, hfed⟩ := h
    have hpast : ¬ ReadPast d ⟨rest, looks', starved⟩ := fun hpast =>
      Bool.false_ne_true ((hfed hpast.1).symm.trans hpast.2)
    obtain ⟨⟨rest', looks'', reads'⟩, hbelow, hrest, hlooks, -⟩ :=
      hport.ends hp.asks hp.blind hsame hends hpast
    obtain rfl : rest' = rest := hrest
    obtain rfl : looks'' = looks' := hlooks
    exact ⟨reads', hbelow⟩

end Library

/-! ## `hal_read_write` on the port -/

/-- Reads of something, and looks at the clock. -/
def Receives (e : Call) : Prop :=
  Listens e ∧ Asks e

theorem Receives.portable {α : Type} {p : IfcM α} (hp : p.Only Receives) : Portable p where
  asks := hp.mono fun _ he => he.2
  blind := hp.blind fun e he r r' hr => by
    cases e with
    | transportWrite buf => exact he.1.elim
    | transportRead len => exact hr
    | gettime => exact hr

theorem Portable.bind {α β : Type} {p : IfcM α} {f : α → IfcM β} (hp : Portable p)
    (hf : ∀ a, Portable (f a)) : Portable (p >>= f) :=
  ⟨hp.asks.bind fun _ a _ => (hf a).asks, hp.blind.bind fun a => (hf a).blind⟩

theorem Portable.done {α : Type} (a : α) : Portable (.done a : IfcM α) :=
  ⟨trivial, trivial⟩

theorem one_asked : Receives (.transportRead 1) :=
  ⟨trivial, show (1 : U16) ≠ 0 by decide⟩

theorem awaitFrameStart_receives (timeStart : Time) (fuel : Nat) (currByte : U8) :
    (awaitFrameStart timeStart fuel currByte).Only Receives := by
  induction fuel generalizing currByte with
  | zero => trivial
  | succ fuel ih =>
    refine Only.call one_asked fun r => Only.call ⟨trivial, trivial⟩ fun now => ?_
    exact Only.ite trivial (Only.ite trivial (Only.ite (ih _) trivial))

theorem drain_receives (fuel : Nat) : (drain fuel).Only Receives := by
  induction fuel with
  | zero => trivial
  | succ fuel ih => exact Only.call one_asked fun r => Only.ite ih trivial

theorem listenBody_receives (fuel : Nat) (headerBuf : List U8) (op messageNum : U8) (hasBuf : Bool)
    (len : U16) : (listenBody fuel headerBuf op messageNum hasBuf len).Only Receives := by
  have htwo : Receives (.transportRead 2) := ⟨trivial, show (2 : U16) ≠ 0 by decide⟩
  unfold listenBody
  rw [only_ite, only_ite]
  refine ⟨fun _ => (drain_receives fuel).bind fun _ _ _ => trivial, fun _ =>
    ⟨fun h => Only.call ⟨trivial, ?_⟩ fun r => Only.call htwo fun s => trivial,
      fun _ => Only.call htwo fun s => trivial⟩⟩
  -- A payload is read only where there is one.
  rintro hzero
  rw [hzero] at h
  exact absurd h.2.2 (by decide)

theorem listen_receives (fuel : Nat) (op messageNum : U8) (hasBuf : Bool) (len : U16) :
    (Ifc.listen fuel op messageNum hasBuf len).Only Receives := by
  unfold Ifc.listen
  refine Only.call ⟨trivial, trivial⟩ fun start => ?_
  rw [only_ite]
  refine ⟨fun _ => trivial, fun _ => ?_⟩
  refine (awaitFrameStart_receives _ _ _).bind fun _ started _ => ?_
  cases started with
  | error code => trivial
  | ok ret =>
    rw [only_ite]
    refine ⟨fun _ => trivial, fun _ => Only.call ⟨trivial, show (5 : U16) ≠ 0 by decide⟩ fun r => ?_⟩
    rw [only_ite]
    exact ⟨fun _ => trivial, fun _ => listenBody_receives _ _ _ _ _ _⟩

theorem sendPacket_portable (op messageNum : U8) (buf : Option (List U8)) (len : U16) :
    Portable (sendPacket op messageNum buf len) := by
  unfold sendPacket
  refine ⟨Only.call trivial fun _ => ?_, fun _ _ _ => rfl, fun _ => ?_⟩
  · exact Only.ite (Only.call trivial fun _ => Only.call trivial fun _ => trivial)
      (Only.call trivial fun _ => trivial)
  · exact Blind.ite ⟨fun _ _ _ => rfl, fun _ => ⟨fun _ _ _ => rfl, fun _ => trivial⟩⟩
      ⟨fun _ _ _ => rfl, fun _ => trivial⟩

theorem halReadWrite_portable (fuel : Nat) (checksumBuff : List U8) (messageNum : U32)
    (c : Command) : Portable (halReadWrite fuel checksumBuff messageNum c) := by
  unfold halReadWrite
  split
  next => exact .done _
  next =>
    split
    next => exact .done _
    next =>
      refine (sendPacket_portable _ _ _ _).bind fun _ => ?_
      rw [recvPacket_eq]
      exact (((Receives.portable (listen_receives _ _ _ _ _)).bind fun _ => .done _)).bind
        fun _ => .done _

/-- **An exchange on a serial port** goes as on a stream, whatever pieces its reads get. Where the
line ends, it returns as on the stream if the port is open; if it is closed, it returns exactly
where the stream has not been read past its end, and hangs otherwise. -/
theorem halReadWrite_port_iff {d : Device} {fuel turns : Nat} (hfuel : 65536 ≤ fuel) {tp : Time}
    {checksumBuff : List U8} {messageNum : U32} {c : Command} {B rest : List U8}
    {looks looks' reads : Nat} {r : (Int × Option (List U8)) × U32} :
    (∃ reads', Ends (port d)
        (interp (pcTransport fuel tp) (halReadWrite turns checksumBuff messageNum c))
        ⟨B, looks, reads⟩ r ⟨rest, looks', reads'⟩) ↔
      ∃ starved, Ends (stream (d.time tp) spent) (halReadWrite turns checksumBuff messageNum c)
          ⟨B, looks, false⟩ r ⟨rest, looks', starved⟩ ∧ (d.closed = true → starved = false) :=
  (halReadWrite_portable turns checksumBuff messageNum c).ends_iff hfuel

/-- A port that is read byte by byte. -/
def slowPort : Device where
  chunk := fun _ => 0
  clock := fun _ => (0, ⟨7, 0⟩)
  closed := false

theorem slowPort_prompt : Prompt (slowPort.time ⟨0, 0⟩) :=
  fun _ => show (0 : Int) ≤ 0 ∧ (0 : Int) ≤ 0 ∧ (7 : Int) - 7 ≤ 2 by decide

theorem spent_dry : Dry spent :=
  fun _ _ => ⟨show (-1 : Int) < 0 by decide, List.nil_suffix⟩

theorem two_small : ([5, 6] : List U8).length < 65536 := by decide

/-- A query for two bytes. -/
def twoBytes : Command :=
  query 40 .nothing 2 (.fill 2 9) (Nat.le_refl 2)

/-- An answer of two bytes, to the command with the number 3. -/
theorem halReadWrite_port_slow :
    ∃ looks reads, Ends (port slowPort)
      (interp (pcTransport 65536 ⟨0, 0⟩) (halReadWrite 65540 [0, 0] 3 twoBytes))
      ⟨respFrame 40 3 0 [5, 6], 0, 0⟩ ((2, some [5, 6]), 4) ⟨[], looks, reads⟩ := by
  obtain ⟨heard, starved, hlisten, hresult⟩ := @listen_served (slowPort.time ⟨0, 0⟩) spent 40 3 65540
    slowPort_prompt spent_dry (Nat.le_refl _) (.done [5, 6] two_small) twoBytes ⟨rfl, rfl⟩ [0, 0]
    (i := 0) rfl false
  have hstream : Ends (stream (slowPort.time ⟨0, 0⟩) spent) (halReadWrite 65540 [0, 0] 3 twoBytes)
      ⟨respFrame 40 3 0 [5, 6], 0, false⟩ ((2, some [5, 6]), 4) ⟨[], 2, starved⟩ :=
    (halReadWrite_ends_iff rfl rfl).mpr ⟨rfl, heard, hlisten, hresult.symm⟩
  obtain ⟨reads, hport⟩ := (@halReadWrite_port_iff slowPort 65536 65540 (Nat.le_refl _) ⟨0, 0⟩ [0, 0] 3
    twoBytes (respFrame 40 3 0 [5, 6]) [] 0 2 0 ((2, some [5, 6]), 4)).mpr
    ⟨starved, hstream, fun h => absurd h Bool.false_ne_true⟩
  exact ⟨2, reads, hport⟩

end HostInterface.Pc
