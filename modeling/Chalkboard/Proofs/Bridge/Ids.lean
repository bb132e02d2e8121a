import Mathlib.Algebra.Group.Nat.Defs
import Chalkboard.Bridge.Correlation
import Chalkboard.Proofs.Text.Digits

/-!
# Ids do not repeat

The count of an id can be read off its text: it is the run of digits behind the session and a dash,
and the next dash ends the run whatever the clock shows, be it a negative number that brings a dash
of its own. So ids with different counts are different texts (`Correlation.counted_inj`). The count
of a source goes round after `2 ^ 64` ids, and up to then it gives no id twice
(`Correlation.distinct_ids`). A count that went on would give none twice at all
(`Correlation.exists_injective_ids`).
-/

namespace Chalkboard

namespace Correlation

/-! ## The count of an id -/

/-- The id with a count that does not go round. -/
def counted (session : String) (count : Nat) (millis : Int) : RequestId :=
  ⟨session ++ "-" ++ toString count ++ "-" ++ toString millis⟩

theorem toList_text_counted (session : String) (count : Nat) (millis : Int) :
    (counted session count millis).text.toList =
      session.toList ++ '-' :: (Nat.toDigits 10 count ++ '-' :: (toString millis).toList) := by
  simp only [counted, String.toList_append, Text.toList_repr, List.append_assoc]
  rfl

/-- A dash ends the run of digits in front of it. -/
theorem takeWhile_digits_dash (n : Nat) (rest : List Char) :
    (Nat.toDigits 10 n ++ '-' :: rest).takeWhile Char.isDigit = Nat.toDigits 10 n := by
  have hstop : ('-' :: rest).head?.all (!Char.isDigit ·) = true := rfl
  rw [Text.takeWhile_append_stop hstop, Text.takeWhile_toDigits]

/-- Two ids of one session that are the same text have the same count. -/
theorem counted_inj {session : String} {count count' : Nat} {millis millis' : Int}
    (h : (counted session count millis).text = (counted session count' millis').text) :
    count = count' := by
  have hlist := congrArg String.toList h
  rw [toList_text_counted, toList_text_counted] at hlist
  -- what is left behind the session and its dash starts with the count
  have hrest := List.tail_eq_of_cons_eq (List.append_cancel_left hlist)
  have hdigits := congrArg (List.takeWhile Char.isDigit) hrest
  rw [takeWhile_digits_dash, takeWhile_digits_dash] at hdigits
  have hvalue := congrArg Text.digitsValue hdigits
  rwa [Text.digitsValue_toDigits, Text.digitsValue_toDigits] at hvalue

/-! ## The ids of a source -/

/-- A source counts its ids and keeps its session. -/
theorem source_nextAll (c : Correlation) (times : List Int) :
    (c.nextAll times).1 = ⟨c.session, c.issued + UInt64.ofNat times.length⟩ := by
  induction times generalizing c with
  | nil =>
    have hzero : c.issued + UInt64.ofNat 0 = c.issued := UInt64.add_zero c.issued
    rw [List.length_nil, hzero]
    rfl
  | cons millis times ih =>
    have hcount : c.issued + 1 + UInt64.ofNat times.length =
        c.issued + UInt64.ofNat (times.length + 1) := by
      rw [UInt64.ofNat_add, UInt64.add_assoc, UInt64.add_comm 1]
      rfl
    rw [List.length_cons, ← hcount]
    exact ih (c.next millis).1

/-- The ids come with the times of the clock, and are counted on from the ids before. -/
theorem getElem?_nextAll (c : Correlation) (times : List Int) (k : Nat) :
    (c.nextAll times).2[k]? =
      times[k]?.map fun millis => idAt c.session (c.issued + UInt64.ofNat (k + 1)) millis := by
  -- along the times: the rest of them goes to a source that has counted one id more
  induction times generalizing c k with
  | nil => rfl
  | cons millis times ih =>
    cases k with
    | zero => rfl
    | succ k =>
      have hcount : c.issued + 1 + UInt64.ofNat (k + 1) = c.issued + UInt64.ofNat (k + 2) := by
        rw [UInt64.ofNat_add (k + 1) 1, UInt64.add_assoc, UInt64.add_comm 1]
        rfl
      have hrest := ih (c.next millis).1 k
      rw [List.getElem?_cons_succ, ← hcount]
      exact hrest

theorem length_nextAll (c : Correlation) (times : List Int) :
    (c.nextAll times).2.length = times.length := by
  induction times generalizing c with
  | nil => rfl
  | cons millis times ih => exact congrArg (· + 1) (ih (c.next millis).1)

/-- Counts that are less than a full round apart are different. -/
theorem ofNat_ne_of_lt {i j : Nat} (hlt : i < j) (hround : j < i + 2 ^ 64) (n : UInt64) :
    n + UInt64.ofNat i ≠ n + UInt64.ofNat j := by
  intro heq
  have hsame : UInt64.ofNat i = UInt64.ofNat j := UInt64.add_right_inj n |>.1 heq
  have hmod : i % 2 ^ 64 = j % 2 ^ 64 := by
    have hnat := congrArg UInt64.toNat hsame
    rwa [UInt64.toNat_ofNat', UInt64.toNat_ofNat'] at hnat
  omega

/-- A source gives as many ids as it is asked for, and no text twice, whatever the clock shows, until
its count has gone round. -/
theorem distinct_ids (c : Correlation) (times : List Int) (h : times.length ≤ 2 ^ 64) :
    (c.nextAll times).2.length = times.length ∧
      (c.nextAll times).1 = ⟨c.session, c.issued + UInt64.ofNat times.length⟩ ∧
      ((c.nextAll times).2.map RequestId.text).Nodup := by
  refine ⟨length_nextAll c times, source_nextAll c times, ?_⟩
  rw [List.Nodup, List.pairwise_map, List.pairwise_iff_getElem]
  intro i j hi hj hlt heq
  have hj' : j < times.length := length_nextAll c times ▸ hj
  have hi' : i < times.length := Nat.lt_trans hlt hj'
  have hid (k : Nat) (hk : k < (c.nextAll times).2.length) (hk' : k < times.length) :
      (c.nextAll times).2[k] = idAt c.session (c.issued + UInt64.ofNat (k + 1)) times[k] := by
    have hat := getElem?_nextAll c times k
    rw [List.getElem?_eq_getElem hk, List.getElem?_eq_getElem hk'] at hat
    exact Option.some.inj hat
  rw [hid i hi hi', hid j hj hj'] at heq
  exact ofNat_ne_of_lt (by omega) (by omega) c.issued (UInt64.toNat_inj.1 (counted_inj heq))

/-- A clock that stands still, goes back, and shows negative times. -/
theorem distinct_ids_sample :
    let times : List Int := [5, 5, 4, -1, -1]
    let c := start 0x0a1b2c3d
    times.length ≤ 2 ^ 64 ∧
      (c.nextAll times).2.map RequestId.text =
        ["0a1b2c3d-1-5", "0a1b2c3d-2-5", "0a1b2c3d-3-4", "0a1b2c3d-4--1", "0a1b2c3d-5--1"] ∧
      ((c.nextAll times).2.map RequestId.text).Nodup := by
  intro times c
  have hlength : times.length ≤ 2 ^ 64 := by decide
  exact ⟨hlength, by decide +kernel, (distinct_ids c times hlength).2.2⟩

/-! ## Ids by number -/

/-- The ids of a new source by number, with the times that its clock shows for them. -/
def ids (random : UInt32) (clock : Nat → Int) (n : Nat) : RequestId :=
  idAt (start random).session (UInt64.ofNat n) (clock n)

/-- These are the ids that the source hands out one after the other. -/
theorem getElem?_nextAll_start (random : UInt32) (clock : Nat → Int) {k n : Nat} (hk : k < n) :
    ((start random).nextAll ((List.range n).map fun i => clock (i + 1))).2[k]? =
      some (ids random clock (k + 1)) := by
  have hzero : (start random).issued + UInt64.ofNat (k + 1) = UInt64.ofNat (k + 1) :=
    UInt64.zero_add _
  rw [getElem?_nextAll, List.getElem?_map, List.getElem?_range hk, hzero]
  rfl

/-- Until the count goes round they are the first of ids that never repeat. -/
theorem exists_injective_ids (random : UInt32) (clock : Nat → Int) :
    ∃ f : Nat → RequestId, Function.Injective f ∧ ∀ n < 2 ^ 64, f n = ids random clock n := by
  refine ⟨fun n => counted (start random).session n (clock n), ?_, fun n hn => ?_⟩
  · intro n n' heq
    exact counted_inj (congrArg RequestId.text heq)
  · have hcount : (UInt64.ofNat n).toNat = n := by
      rw [UInt64.toNat_ofNat', Nat.mod_eq_of_lt hn]
    change _ = counted (start random).session (UInt64.ofNat n).toNat (clock n)
    rw [hcount]

end Correlation

end Chalkboard
