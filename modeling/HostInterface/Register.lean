/-!
# Shift registers with feedback

A cyclic redundancy check divides in a register of `w` bits that is shifted
down one bit at a time; when a set bit leaves it, a constant pattern `poly` is
added in. Adding is exclusive or, so a shift is linear (`shift_xor`), and where
the pattern has the top bit set it loses nothing (`shift_inj`).

A message is fed in items of `k` bits: each is added at the low end, and `k`
shifts follow. Bits that are added further up travel down to the low end
untouched, so an item may as well be added before the shifts of the items in
front of it, `k` bits higher. As long as they fit in the register, all the items
of a message can be added at once (`feed_eq`), and then their places are
apart: two such messages leave the same register only if they are the same
(`feed_inj`). That is why a check of `w` bits detects every change to `w`
consecutive bits, wherever they stand in a message (`feed_burst`).

Other checks shift towards the high end and are fed there. Such a register is the
first one read backwards (`reverse_feedUp`), so it detects the same (`feedUp_window`);
what is fed meets its high end only, and the rest travels up (`feedItemUp_split`).
-/

namespace HostInterface.Register

variable {w k : Nat}

/-- One shift. -/
def shift (poly c : BitVec w) : BitVec w :=
  (c >>> 1) ^^^ if c.getLsbD 0 then poly else 0#w

/-- `n` shifts. -/
def shifts (poly : BitVec w) : Nat → BitVec w → BitVec w
  | 0, c => c
  | n + 1, c => shifts poly n (shift poly c)

/-- One item is fed. -/
def feedItem (poly c : BitVec w) (b : BitVec k) : BitVec w :=
  shifts poly k (c ^^^ b.setWidth w)

/-- A message is fed, item by item. -/
def feed (poly c : BitVec w) (bs : List (BitVec k)) : BitVec w :=
  bs.foldl (feedItem poly) c

variable {poly : BitVec w}

/-! ## Shifts -/

theorem shift_xor (poly c d : BitVec w) : shift poly (c ^^^ d) = shift poly c ^^^ shift poly d := by
  unfold shift
  rw [BitVec.ushiftRight_xor_distrib, BitVec.getLsbD_xor]
  cases c.getLsbD 0 <;> cases d.getLsbD 0
  · simp
  · simp [BitVec.xor_assoc]
  · simp only [Bool.xor_false, if_true, Bool.false_eq_true, if_false]
    rw [BitVec.xor_zero, BitVec.xor_assoc, BitVec.xor_comm (d >>> 1), ← BitVec.xor_assoc]
  · simp only [Bool.xor_self, if_true, Bool.false_eq_true, if_false]
    rw [BitVec.xor_zero, BitVec.xor_comm (d >>> 1) poly, BitVec.xor_assoc, ← BitVec.xor_assoc poly,
      BitVec.xor_self, BitVec.zero_xor]

theorem xor_eq_zero_iff {c d : BitVec w} : c ^^^ d = 0#w ↔ c = d := by
  constructor
  · intro h
    have := congrArg (· ^^^ d) h
    simpa [BitVec.xor_assoc] using this
  · intro h
    rw [h, BitVec.xor_self]

/-- A pattern with the top bit set: a shift leaves nothing behind only of nothing. -/
theorem shift_eq_zero (hpoly : poly.msb = true) {c : BitVec w} (h : shift poly c = 0#w) :
    c = 0#w := by
  have hw : 0 < w := by
    rcases Nat.eq_zero_or_pos w with rfl | hpos
    · simp [BitVec.msb, BitVec.getMsbD] at hpoly
    · exact hpos
  unfold shift at h
  -- The top bit of the result shows what the bit that left was.
  have hlow : c.getLsbD 0 = false := by
    cases hbit : c.getLsbD 0 with
    | false => rfl
    | true =>
      have htop := congrArg (fun x => x.getLsbD (w - 1)) h
      rw [hbit, if_pos rfl] at htop
      rw [BitVec.msb_eq_getLsbD_last] at hpoly
      simp only [BitVec.getLsbD_xor, BitVec.getLsbD_ushiftRight, hpoly] at htop
      rw [BitVec.getLsbD_of_ge c (1 + (w - 1)) (by omega)] at htop
      simp at htop
  rw [hlow, if_neg (by simp), BitVec.xor_zero] at h
  apply BitVec.eq_of_getLsbD_eq
  intro i hi
  rw [BitVec.getLsbD_zero]
  cases i with
  | zero => exact hlow
  | succ i =>
    have := congrArg (fun x => x.getLsbD i) h
    simpa [Nat.add_comm 1 i] using this

theorem shift_inj (hpoly : poly.msb = true) {c d : BitVec w} (h : shift poly c = shift poly d) :
    c = d := by
  rw [← xor_eq_zero_iff, ← shift_xor] at h
  exact xor_eq_zero_iff.mp (shift_eq_zero hpoly h)

theorem shifts_add (poly : BitVec w) (m n : Nat) (c : BitVec w) :
    shifts poly (m + n) c = shifts poly n (shifts poly m c) := by
  induction m generalizing c with
  | zero => rw [Nat.zero_add]; rfl
  | succ m ih => rw [Nat.add_right_comm, shifts, ih, shifts]

theorem shifts_xor (poly : BitVec w) (n : Nat) (c d : BitVec w) :
    shifts poly n (c ^^^ d) = shifts poly n c ^^^ shifts poly n d := by
  induction n generalizing c d with
  | zero => rfl
  | succ n ih => rw [shifts, shift_xor, ih, shifts, shifts]

theorem shifts_inj (hpoly : poly.msb = true) {n : Nat} {c d : BitVec w}
    (h : shifts poly n c = shifts poly n d) : c = d := by
  induction n generalizing c d with
  | zero => exact h
  | succ n ih => exact shift_inj hpoly (ih h)

/-- Bits above the low end travel down. -/
theorem shift_shiftLeft {c : BitVec w} (h : c.getLsbD (w - 1) = false) :
    shift poly (c <<< 1) = c := by
  unfold shift
  have hlow : (c <<< 1).getLsbD 0 = false := by simp
  rw [hlow, if_neg (by simp), BitVec.xor_zero]
  apply BitVec.eq_of_getLsbD_eq
  intro i hi
  rw [BitVec.getLsbD_ushiftRight, BitVec.getLsbD_shiftLeft]
  rcases Nat.lt_or_ge (1 + i) w with hlt | hge
  · simp [hlt]
  · have htop : i = w - 1 := by omega
    have hout : ¬ 1 + (w - 1) < w := by omega
    rw [htop, h]
    simp [hout]

/-- The same of any number of places. -/
theorem shifts_shiftLeft {n : Nat} {c : BitVec w} (h : ∀ i, w ≤ i + n → c.getLsbD i = false) :
    shifts poly n (c <<< n) = c := by
  induction n generalizing c with
  | zero => simp [shifts]
  | succ n ih =>
    rw [BitVec.shiftLeft_add]
    rw [shifts, shift_shiftLeft, ih]
    · exact fun i hi => h i (by omega)
    · rw [BitVec.getLsbD_shiftLeft]
      rcases Nat.lt_or_ge (w - 1) n with hlt | hge
      · simp [hlt]
      · rw [h (w - 1 - n) (by omega)]
        simp

/-! ## Messages -/

theorem feed_append (poly c : BitVec w) (as bs : List (BitVec k)) :
    feed poly c (as ++ bs) = feed poly (feed poly c as) bs := List.foldl_append

/-- Nothing of the register is lost. -/
theorem feed_state_inj (hpoly : poly.msb = true) {c d : BitVec w} {bs : List (BitVec k)}
    (h : feed poly c bs = feed poly d bs) : c = d := by
  induction bs generalizing c d with
  | nil => exact h
  | cons b bs ih =>
    have hstep : c ^^^ b.setWidth w = d ^^^ b.setWidth w := shifts_inj hpoly (ih h)
    have := congrArg (· ^^^ b.setWidth w) hstep
    simpa [BitVec.xor_assoc] using this

/-- The items of a message, each in its place. -/
def place (w : Nat) : List (BitVec k) → BitVec w
  | [] => 0#w
  | b :: bs => b.setWidth w ^^^ (place w bs <<< k)

/-- The places of the items end where their bits do. -/
theorem getLsbD_place {bs : List (BitVec k)} {i : Nat} (h : k * bs.length ≤ i) :
    (place w bs).getLsbD i = false := by
  induction bs generalizing i with
  | nil => simp [place]
  | cons b bs ih =>
    rw [List.length_cons, Nat.mul_succ] at h
    rw [place, BitVec.getLsbD_xor, BitVec.getLsbD_setWidth, BitVec.getLsbD_shiftLeft,
      BitVec.getLsbD_of_ge b i (by omega), ih (by omega)]
    simp

/-- **All at once**: a message that fits in the register can be added in one go. -/
theorem feed_eq {bs : List (BitVec k)} (h : k * bs.length ≤ w) (c : BitVec w) :
    feed poly c bs = shifts poly (k * bs.length) (c ^^^ place w bs) := by
  induction bs generalizing c with
  | nil => simp [feed, shifts, place]
  | cons b bs ih =>
    rw [List.length_cons, Nat.mul_succ] at h ⊢
    have htravel : shifts poly k (place w bs <<< k) = place w bs :=
      shifts_shiftLeft fun i hi => getLsbD_place (by omega)
    calc feed poly (feedItem poly c b) bs
        = shifts poly (k * bs.length) (feedItem poly c b ^^^ place w bs) := ih (by omega) _
      _ = shifts poly (k * bs.length) (shifts poly k (c ^^^ place w (b :: bs))) := by
          rw [place, ← BitVec.xor_assoc, shifts_xor poly k, htravel]
          rfl
      _ = shifts poly (k * bs.length + k) (c ^^^ place w (b :: bs)) := by
          rw [Nat.add_comm, shifts_add]

/-- The places are apart. -/
theorem place_inj {bs cs : List (BitVec k)} (hlen : cs.length = bs.length)
    (hfit : k * bs.length ≤ w) (h : place w bs = place w cs) : bs = cs := by
  induction bs generalizing cs with
  | nil => exact (List.length_eq_zero_iff.mp hlen).symm
  | cons b bs ih =>
    cases cs with
    | nil => simp at hlen
    | cons c cs =>
      rw [List.length_cons, Nat.mul_succ] at hfit
      rw [List.length_cons, List.length_cons, Nat.add_right_cancel_iff] at hlen
      have hbit : ∀ i, (place w (b :: bs)).getLsbD i = (place w (c :: cs)).getLsbD i := by
        intro i
        rw [h]
      simp only [place, BitVec.getLsbD_xor, BitVec.getLsbD_setWidth,
        BitVec.getLsbD_shiftLeft] at hbit
      have hhead : b = c := by
        apply BitVec.eq_of_getLsbD_eq
        intro i hi
        have hlow := hbit i
        have hiw : i < w := by omega
        simpa [hi, hiw] using hlow
      have htail : place w bs = place w cs := by
        apply BitVec.eq_of_getLsbD_eq
        intro i hi
        rcases Nat.lt_or_ge (i + k) w with hlt | hge
        · have hhigh := hbit (i + k)
          rw [BitVec.getLsbD_of_ge b (i + k) (by omega),
            BitVec.getLsbD_of_ge c (i + k) (by omega)] at hhigh
          have hup : ¬ i + k < k := Nat.not_lt.mpr (Nat.le_add_left k i)
          simpa [hlt, hup] using hhigh
        · rw [getLsbD_place (by omega), getLsbD_place (by rw [hlen]; omega)]
      rw [hhead, ih hlen (by omega) htail]

/-- Two messages that fit in the register and leave the same are the same. -/
theorem feed_inj (hpoly : poly.msb = true) {c : BitVec w} {bs cs : List (BitVec k)}
    (hlen : cs.length = bs.length) (hfit : k * bs.length ≤ w)
    (h : feed poly c bs = feed poly c cs) : bs = cs := by
  rw [feed_eq hfit, feed_eq (by rw [hlen]; exact hfit), hlen] at h
  have hplace : c ^^^ place w bs = c ^^^ place w cs := shifts_inj hpoly h
  have hsame := congrArg (c ^^^ ·) hplace
  simp only [← BitVec.xor_assoc, BitVec.xor_self, BitVec.zero_xor] at hsame
  exact place_inj hlen hfit hsame

/-- **Bursts are detected**: a change within `w` consecutive bits changes the register. -/
theorem feed_burst (hpoly : poly.msb = true) {c : BitVec w} {pre post bs cs : List (BitVec k)}
    (hlen : cs.length = bs.length) (hfit : k * bs.length ≤ w) (hne : bs ≠ cs) :
    feed poly c (pre ++ bs ++ post) ≠ feed poly c (pre ++ cs ++ post) := by
  intro h
  rw [feed_append, feed_append, feed_append, feed_append] at h
  exact hne (feed_inj hpoly hlen hfit (feed_state_inj hpoly h))

/-- Two lists that differ, but only in the `n` items from `i` on. -/
theorem window_split {α : Type} {l l' : List α} {i n : Nat} (hlen : l'.length = l.length)
    (hsame : ∀ j, j < l.length → j < i ∨ i + n ≤ j → l'[j]? = l[j]?) :
    l'.take i = l.take i ∧ l'.drop (i + n) = l.drop (i + n) := by
  have hall : ∀ j, j < i ∨ i + n ≤ j → l'[j]? = l[j]? := by
    intro j hj
    rcases Nat.lt_or_ge j l.length with hlt | hge
    · exact hsame j hlt hj
    · rw [List.getElem?_eq_none (by omega), List.getElem?_eq_none hge]
  constructor
  · apply List.ext_getElem?
    intro j
    rw [List.getElem?_take, List.getElem?_take]
    split
    next hlt => exact hall j (Or.inl hlt)
    next => rfl
  · apply List.ext_getElem?
    intro j
    rw [List.getElem?_drop, List.getElem?_drop]
    exact hall (i + n + j) (Or.inr (Nat.le_add_right _ _))

/-- The same for a change within the `n` items from `i` on. -/
theorem feed_window (hpoly : poly.msb = true) {l l' : List (BitVec k)} {i n : Nat}
    (hfit : k * n ≤ w) (hlen : l'.length = l.length)
    (hsame : ∀ j, j < l.length → j < i ∨ i + n ≤ j → l'[j]? = l[j]?) (hne : l' ≠ l)
    (c : BitVec w) : feed poly c l' ≠ feed poly c l := by
  obtain ⟨htake, hdrop⟩ := window_split hlen hsame
  -- In front of the window, the window, and behind it.
  have hsplit : ∀ m : List (BitVec k), m = m.take i ++ (m.drop i).take n ++ m.drop (i + n) := by
    intro m
    rw [List.append_assoc, ← List.drop_drop, List.take_append_drop, List.take_append_drop]
  have hwindow : (l'.drop i).take n ≠ (l.drop i).take n := by
    intro h
    refine hne ?_
    rw [hsplit l', hsplit l, htake, h, hdrop]
  have hwidth : k * ((l'.drop i).take n).length ≤ w := by
    rw [List.length_take]
    exact Nat.le_trans (Nat.mul_le_mul_left k (Nat.min_le_left ..)) hfit
  have hlenw : ((l.drop i).take n).length = ((l'.drop i).take n).length := by
    simp only [List.length_take, List.length_drop, hlen]
  rw [hsplit l', hsplit l, htake, hdrop]
  exact feed_burst hpoly hlenw hwidth hwindow

/-! ## Registers that shift up -/

/-- One shift towards the high end. -/
def shiftUp (poly c : BitVec w) : BitVec w :=
  (c <<< 1) ^^^ if c.msb then poly else 0#w

/-- `n` of them. -/
def shiftsUp (poly : BitVec w) : Nat → BitVec w → BitVec w
  | 0, c => c
  | n + 1, c => shiftsUp poly n (shiftUp poly c)

/-- One item is fed, at the high end. -/
def feedItemUp (poly c : BitVec w) (b : BitVec k) : BitVec w :=
  shiftsUp poly k (c ^^^ (b.setWidth w <<< (w - k)))

/-- A message is fed, item by item. -/
def feedUp (poly c : BitVec w) (bs : List (BitVec k)) : BitVec w :=
  bs.foldl (feedItemUp poly) c

theorem reverse_xor (c d : BitVec w) : (c ^^^ d).reverse = c.reverse ^^^ d.reverse := by
  apply BitVec.eq_of_getLsbD_eq
  intro i hi
  rw [BitVec.getLsbD_xor, BitVec.getLsbD_reverse, BitVec.getLsbD_reverse, BitVec.getLsbD_reverse,
    BitVec.getMsbD_xor]

theorem reverse_shiftUp (poly c : BitVec w) :
    (shiftUp poly c).reverse = shift poly.reverse c.reverse := by
  unfold shiftUp shift
  have hbit : c.reverse.getLsbD 0 = c.msb := by
    rw [BitVec.getLsbD_reverse, BitVec.msb]
  have hmove : (c <<< 1).reverse = c.reverse >>> 1 := by
    apply BitVec.eq_of_getLsbD_eq
    intro i hi
    rw [BitVec.getLsbD_reverse, BitVec.getLsbD_ushiftRight, BitVec.getLsbD_reverse,
      BitVec.getMsbD_shiftLeft, Nat.add_comm]
  have hzero : (0#w).reverse = 0#w := BitVec.reverse_eq_zero_iff.mpr rfl
  rw [reverse_xor, hmove, hbit]
  cases c.msb
  · exact congrArg (_ ^^^ ·) hzero
  · rfl

theorem reverse_shiftsUp (poly : BitVec w) (n : Nat) (c : BitVec w) :
    (shiftsUp poly n c).reverse = shifts poly.reverse n c.reverse := by
  induction n generalizing c with
  | zero => rfl
  | succ n ih => rw [shiftsUp, ih, reverse_shiftUp, shifts]

/-- The high end is the low end of the register read backwards. -/
theorem reverse_feedItemUp (hk : k ≤ w) (poly c : BitVec w) (b : BitVec k) :
    (feedItemUp poly c b).reverse = feedItem poly.reverse c.reverse b.reverse := by
  have hplace : (b.setWidth w <<< (w - k)).reverse = b.reverse.setWidth w := by
    apply BitVec.eq_of_getLsbD_eq
    intro i hi
    rw [BitVec.getLsbD_reverse, BitVec.getMsbD_shiftLeft, BitVec.getLsbD_setWidth,
      BitVec.getLsbD_reverse, BitVec.getMsbD_setWidth, show i + (w - k) + k - w = i by omega,
      decide_eq_true hi, decide_eq_true (Nat.le_add_left (w - k) i)]
  unfold feedItemUp feedItem
  rw [reverse_shiftsUp, reverse_xor, hplace]

theorem reverse_feedUp (hk : k ≤ w) (poly c : BitVec w) (bs : List (BitVec k)) :
    (feedUp poly c bs).reverse = feed poly.reverse c.reverse (bs.map BitVec.reverse) := by
  unfold feedUp feed
  induction bs generalizing c with
  | nil => rfl
  | cons b bs ih => rw [List.foldl_cons, List.map_cons, List.foldl_cons, ih, reverse_feedItemUp hk]

theorem shiftsUp_xor (poly : BitVec w) (n : Nat) (c d : BitVec w) :
    shiftsUp poly n (c ^^^ d) = shiftsUp poly n c ^^^ shiftsUp poly n d := by
  have hrev : (shiftsUp poly n (c ^^^ d)).reverse =
      (shiftsUp poly n c ^^^ shiftsUp poly n d).reverse := by
    rw [reverse_xor, reverse_shiftsUp, reverse_shiftsUp, reverse_shiftsUp, reverse_xor, shifts_xor]
  have h := congrArg BitVec.reverse hrev
  rwa [BitVec.reverse_reverse_eq, BitVec.reverse_reverse_eq] at h

/-- Where the high end is clear, bits only travel up. -/
theorem shiftsUp_eq_shiftLeft {n : Nat} {c : BitVec w}
    (h : ∀ i, w ≤ i + n → c.getLsbD i = false) : shiftsUp poly n c = c <<< n := by
  induction n generalizing c with
  | zero => exact (BitVec.shiftLeft_zero c).symm
  | succ n ih =>
    have htop : c.msb = false := by
      rw [BitVec.msb_eq_getLsbD_last]
      exact h _ (by omega)
    have hstep : shiftUp poly c = c <<< 1 := by
      unfold shiftUp
      rw [htop, if_neg (by decide), BitVec.xor_zero]
    rw [shiftsUp, hstep, ih, Nat.add_comm, BitVec.shiftLeft_add]
    intro i hi
    rw [BitVec.getLsbD_shiftLeft]
    rcases Nat.lt_or_ge i 1 with hlow | hlow
    · simp [hlow]
    · rw [h (i - 1) (by omega), Bool.and_false]

/-- What is fed meets the high end of the register; the rest of it travels up. -/
theorem feedItemUp_split (hk : k ≤ w) (poly c : BitVec w) (b : BitVec k) :
    feedItemUp poly c b =
      (c <<< k) ^^^ feedItemUp poly 0#w ((c >>> (w - k)).setWidth k ^^^ b) := by
  have hparts : c ^^^ (b.setWidth w <<< (w - k)) = ((c <<< k) >>> k) ^^^
      (0#w ^^^ (((c >>> (w - k)).setWidth k ^^^ b).setWidth w <<< (w - k))) := by
    apply BitVec.eq_of_getLsbD_eq
    intro i hi
    simp only [BitVec.getLsbD_xor, BitVec.getLsbD_shiftLeft, BitVec.getLsbD_setWidth,
      BitVec.getLsbD_ushiftRight, BitVec.getLsbD_zero]
    rcases Nat.lt_or_ge i (w - k) with hlow | hhigh
    · have hin : k + i < w := by omega
      simp [hlow, hin]
    · have hout : ¬ k + i < w := by omega
      have hitem : i - (w - k) < k := by omega
      rw [show w - k + (i - (w - k)) = i by omega]
      simp [hi, hout, hitem, Nat.not_lt.mpr hhigh, show i - (w - k) < w by omega]
  have hlow : ∀ i, w ≤ i + k → ((c <<< k) >>> k).getLsbD i = false := by
    intro i hi
    rw [BitVec.getLsbD_ushiftRight]
    exact BitVec.getLsbD_of_ge _ _ (by omega)
  have hback : ((c <<< k) >>> k) <<< k = c <<< k := by
    apply BitVec.eq_of_getLsbD_eq
    intro i hi
    simp only [BitVec.getLsbD_shiftLeft, BitVec.getLsbD_ushiftRight]
    rcases Nat.lt_or_ge i k with hlt | hge
    · simp [hlt]
    · rw [show k + (i - k) = i by omega, decide_eq_true hi, decide_eq_false (Nat.not_lt.mpr hge)]
      rfl
  unfold feedItemUp
  rw [hparts, shiftsUp_xor, shiftsUp_eq_shiftLeft hlow, hback]

/-- **Bursts are detected** here as well. -/
theorem feedUp_window (hk : k ≤ w) (hpoly : poly.getLsbD 0 = true) {l l' : List (BitVec k)}
    {i n : Nat} (hfit : k * n ≤ w) (hlen : l'.length = l.length)
    (hsame : ∀ j, j < l.length → j < i ∨ i + n ≤ j → l'[j]? = l[j]?) (hne : l' ≠ l)
    (c : BitVec w) : feedUp poly c l' ≠ feedUp poly c l := by
  intro h
  have hrev := congrArg BitVec.reverse h
  rw [reverse_feedUp hk, reverse_feedUp hk] at hrev
  refine feed_window (i := i) (BitVec.msb_reverse.trans hpoly) hfit ?_ (fun j hj hout => ?_)
    (fun heq => ?_) _ hrev
  · rw [List.length_map, List.length_map, hlen]
  · rw [List.length_map] at hj
    rw [List.getElem?_map, List.getElem?_map, hsame j hj hout]
  · refine hne ((List.map_inj_right fun x y hxy => ?_).mp heq)
    rw [← BitVec.reverse_reverse_eq (x := x), hxy, BitVec.reverse_reverse_eq]

end HostInterface.Register
