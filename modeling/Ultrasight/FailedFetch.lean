import Ultrasight.TraceBuffer

/-!
# Fetches that fail, and fetches that fall short

`fetch_trace` has an exit for `mremap` only. A negative result of
`cs_get_trace_data` is added to the position, and a short one is taken for the
whole chunk; both end with 0.

* `failed_fetch_intact_iff`: a failed fetch leaves the buffer as it was exactly
  if `mremap` refused to grow it;
* `fetch_discards_nothing_iff`: nothing is discarded exactly if everything was
  delivered, or `mremap` refused.
-/

namespace Ultrasight.TraceBuffer

open Chunks

/-- `(size_t)len`. -/
def Fetch.asked (f : Fetch) : Nat := (BitVec.ofInt 64 f.len).toNat

/-- The `k`-th doubling is asked for, and `mremap` refuses it. -/
def Fetch.RefusedAt (f : Fetch) (b : Buf) (k : Nat) : Prop :=
  b.size.toNat * 2 ^ k - b.used < f.asked ∧ f.remap (b.size * 2 ^ k * 2) = none

/-- `mremap` refuses one of the doublings that the unread count asks for. -/
def Fetch.Refused (f : Fetch) (b : Buf) : Prop := ∃ k, f.RefusedAt b.align k

/-- One of the calls fails. -/
def Fetch.Fails (f : Fetch) (b : Buf) : Prop := f.len < 0 ∨ f.n < 0 ∨ f.Refused b

/-- The results are C `int`s. -/
structure Fetch.Ints (f : Fetch) : Prop where
  len : -2 ^ 31 ≤ f.len ∧ f.len < 2 ^ 31
  n : -2 ^ 31 ≤ f.n ∧ f.n < 2 ^ 31

/-- The buffers that fetches leave, whatever their calls answered, as long as
the position is inside. -/
inductive Reached (p : Placement defaultTraceSize.toNat) : Buf → Prop
  | alloc : Reached p (allocTraceBuf p)
  | fetch {f : Fetch} {b b' : Buf} {rc : Int} : Reached p b → fetchTrace f b = .ok (rc, b') →
      b'.buf.toNat ≤ b'.ptr.toNat → b'.ptr.toNat ≤ b'.buf.toNat + b'.size.toNat → Reached p b'

/-- What a failed fetch may do: move the buffer and align the position. -/
structure Intact (b b' : Buf) : Prop where
  stored : exportTrace b <+: exportTrace b'
  low : b.used ≤ b'.used
  high : b'.used < b.used + 8
  inside : b'.buf.toNat ≤ b'.ptr.toNat ∧ b'.ptr.toNat ≤ b'.buf.toNat + b'.size.toNat

variable {f : Fetch} {b b' : Buf}

/-! ## The growth loop -/

theorem refusedAt_zero : f.RefusedAt b 0 ↔
    b.size.toNat - b.used < f.asked ∧ f.remap (b.size * 2) = none := by
  rw [Fetch.RefusedAt, Nat.pow_zero, BitVec.pow_zero, Nat.mul_one, BitVec.mul_one]

/-- After a doubling, the next one is the first. -/
theorem refusedAt_double {p : Placement (b.size * 2).toNat}
    (twice : (b.size * 2).toNat = 2 * b.size.toNat)
    (used : (b.move (b.size * 2) p).used = b.used) (k : Nat) :
    f.RefusedAt (b.move (b.size * 2) p) k ↔ f.RefusedAt b (k + 1) := by
  have size : (b.move (b.size * 2) p).size = b.size * 2 := rfl
  rw [Fetch.RefusedAt, Fetch.RefusedAt, used, size, Buf.double_pow, Buf.double_pow_toNat twice]

theorem refusedAt_move (h : b.Sound) (p : Placement (b.size * 2).toNat) (k : Nat) :
    f.RefusedAt (b.move (b.size * 2) p) k ↔ f.RefusedAt b (k + 1) :=
  refusedAt_double (Buf.double_toNat p h.double) (h.move p).2.1 k

/-- How the growth loop ends: refused a doubling, or with room for all that was
asked for; what is stored is kept in both cases. -/
theorem growLoop_cases {fuel k : Nat} (h : b.Sound) (size : b.size.toNat = 2 ^ k)
    (enough : 64 ≤ fuel + k) :
    ∃ b', b'.Sound ∧ b'.used = b.used ∧ b'.contents = b.contents ∧
      (growLoop f fuel b = .ok (.failed b') ∧ (∃ j, f.RefusedAt b j) ∨
       growLoop f fuel b = .ok (.room b') ∧ f.asked ≤ b'.size.toNat - b'.used ∧
        ∀ j, ¬ f.RefusedAt b j) := by
  induction fuel generalizing b k with
  | zero =>
    have := b.size.isLt
    have : 2 ^ 64 ≤ 2 ^ k := Nat.pow_le_pow_right (by decide) (by omega)
    omega
  | succ fuel ih =>
    have room := h.remain
    simp only [growLoop]
    split
    · rename_i more
      rw [BitVec.lt_def, room] at more
      cases moved : f.remap (b.size * 2) with
      | none => exact ⟨b, h, rfl, rfl, .inl ⟨rfl, 0, refusedAt_zero.mpr ⟨more, moved⟩⟩⟩
      | some p =>
        obtain ⟨sound, used, contents⟩ := h.move p
        have next : (b.move (b.size * 2) p).size.toNat = 2 ^ (k + 1) := by
          show (b.size * 2).toNat = _
          rw [Buf.double_toNat p h.double, size, Nat.pow_succ']
        obtain ⟨b', sound', used', contents', ends⟩ := ih sound next (by omega)
        refine ⟨b', sound', used'.trans used, contents'.trans contents, ?_⟩
        rcases ends with ⟨failed, j, refused⟩ | ⟨fits, enough, never⟩
        · exact .inl ⟨failed, j + 1, (refusedAt_move h p j).mp refused⟩
        · refine .inr ⟨fits, enough, ?_⟩
          intro j refused
          cases j with
          | zero =>
            rw [refusedAt_zero, moved] at refused
            cases refused.2
          | succ j => exact never j ((refusedAt_move h p j).mpr refused)
    · rename_i fits
      rw [BitVec.lt_def, room, Nat.not_lt] at fits
      refine ⟨b, h, rfl, rfl, .inr ⟨rfl, fits, ?_⟩⟩
      intro j refused
      have := refused.1
      have : b.size.toNat * 1 ≤ b.size.toNat * 2 ^ j :=
        Nat.mul_le_mul_left _ Nat.one_le_two_pow
      simp only [Fetch.asked] at *
      omega

/-- The two ends of a fetch. -/
theorem fetchTrace_cases (h : b.Sound) :
    ∃ grown, grown.Sound ∧ grown.used = roundUp b.used 8 ∧ grown.contents = b.align.contents ∧
      (fetchTrace f b = .ok (-1, grown) ∧ f.Refused b ∨
       fetchTrace f b = (grown.region.write grown.ptr f.data).map (fun region =>
          (0, { grown with ptr := grown.ptr + BitVec.ofInt 64 f.n, region := region })) ∧
        f.asked ≤ grown.size.toNat - grown.used ∧ ¬ f.Refused b) := by
  obtain ⟨aligned, used⟩ := h.align
  obtain ⟨k, size⟩ := aligned.double
  have enough : 64 ≤ growFuel + (k + 3) := by simp only [growFuel]; omega
  obtain ⟨grown, sound, same, contents, ⟨failed, refused⟩ | ⟨fits, room, never⟩⟩ :=
    @growLoop_cases f b.align growFuel (k + 3) aligned size enough
  · exact ⟨grown, sound, same.trans used, contents, .inl ⟨by simp only [fetchTrace, failed], refused⟩⟩
  · refine ⟨grown, sound, same.trans used, contents, .inr ⟨?_, room, ?_⟩⟩
    · simp only [fetchTrace, fits]
    · rintro ⟨j, refused⟩
      exact never j refused

/-- A negative count asks for more than there can be. -/
theorem negative_refused (h : b.Sound) (int : f.Ints) (negative : f.len < 0) : f.Refused b := by
  obtain ⟨grown, sound, _, _, ⟨_, refused⟩ | ⟨_, room, _⟩⟩ := @fetchTrace_cases f b h
  · exact refused
  · exfalso
    have huge : 2 ^ 63 < f.asked := by
      have := int.len
      rw [Fetch.asked, BitVec.toNat_ofInt]
      omega
    obtain ⟨k, size⟩ := sound.double
    have bound := grown.size.isLt
    have small : k + 3 < 64 := by
      rw [size] at bound
      exact (Nat.pow_lt_pow_iff_right (by decide)).mp bound
    have : grown.size.toNat ≤ 2 ^ 63 := by
      rw [size]
      exact Nat.pow_le_pow_right (by decide) (by omega)
    omega

theorem write_ok {r r' : Region} {a : BitVec 64} {data : List UInt8}
    (h : r.write a data = .ok r') :
    r.base.toNat ≤ a.toNat ∧ a.toNat + data.length ≤ r.base.toNat + r.bytes.length ∧
      r' = r.splice (a.toNat - r.base.toNat) data := by
  simp only [Region.write] at h
  split at h
  · rename_i inside
    cases h
    exact ⟨inside.1, inside.2, rfl⟩
  · cases h

/-- A store keeps the buffer sound if the position is inside afterwards. -/
theorem sound_of_fetch {rc : Int} (h : b.Sound) (done : fetchTrace f b = .ok (rc, b'))
    (low : b'.buf.toNat ≤ b'.ptr.toNat) (high : b'.ptr.toNat ≤ b'.buf.toNat + b'.size.toNat) :
    b'.Sound := by
  obtain ⟨grown, sound, _, _, ⟨failed, _⟩ | ⟨stored, _, _⟩⟩ := @fetchTrace_cases f b h
  · rw [done] at failed
    cases failed
    exact sound
  · rw [done] at stored
    cases written : grown.region.write grown.ptr f.data with
    | error stop => rw [written] at stored; cases stored
    | ok region =>
      rw [written] at stored
      cases stored
      obtain ⟨above, below, rfl⟩ := write_ok written
      constructor
      · exact sound.base
      · exact sound.page
      · exact sound.fits
      · exact sound.double
      · show (grown.region.splice _ f.data).bytes.length = _
        rw [Region.splice_length (by omega)]
        exact sound.length
      · exact low
      · exact high

theorem reached_sound {p : Placement defaultTraceSize.toNat} (h : Reached p b) : b.Sound := by
  induction h with
  | alloc => exact Buf.sound_map p ⟨16, by decide⟩
  | fetch _ done low high ih => exact sound_of_fetch ih done low high

/-! ## A failed fetch -/

theorem aligned_prefix (h : b.Sound) : exportTrace b <+: exportTrace b.align := by
  obtain ⟨aligned, used⟩ := h.align
  rw [exportTrace, exportTrace, h.contents_eq, aligned.contents_eq, used]
  exact List.take_prefix_take_left (le_roundUp b.used (by decide))

/-- **A failed fetch.** When one of its calls fails, `fetch_trace` returns -1
with the buffer intact exactly if `mremap` refused one of the doublings asked
for. A negative unread count always asks for such a one, so what is left is a
negative result of `cs_get_trace_data`. -/
theorem failed_fetch_intact_iff {p : Placement defaultTraceSize.toNat} (h : Reached p b)
    (int : f.Ints) (fails : f.Fails b) :
    ((∃ b', fetchTrace f b = .ok (-1, b') ∧ Intact b b') ↔ f.Refused b) ∧
      (f.Refused b ∨ 0 ≤ f.len ∧ f.n < 0) := by
  have sound := reached_sound h
  constructor
  · obtain ⟨grown, kept, used, contents, ⟨failed, refused⟩ | ⟨stored, _, never⟩⟩ :=
      @fetchTrace_cases f b sound
    · refine iff_of_true ⟨grown, failed, ?_⟩ refused
      have above := le_roundUp b.used (show 0 < 8 by decide)
      constructor
      · rw [exportTrace, exportTrace, contents]
        exact aligned_prefix sound
      · omega
      · rw [used]
        simp only [roundUp]
        omega
      · exact ⟨kept.low, kept.high⟩
    · refine iff_of_false ?_ never
      rintro ⟨b', done, _⟩
      rw [done] at stored
      cases written : grown.region.write grown.ptr f.data with
      | error stop => rw [written] at stored; cases stored
      | ok region => rw [written] at stored; cases stored
  · rcases fails with negative | negative | refused
    · exact .inl (negative_refused sound int negative)
    · by_cases count : f.len < 0
      · exact .inl (negative_refused sound int count)
      · exact .inr ⟨Int.not_lt.mp count, negative⟩
    · exact .inl refused

/-- A negative unread count on an empty buffer. -/
theorem negative_count_intact : let f : Fetch := ⟨-1, fun _ => none, 0, []⟩
    ∃ b', fetchTrace f (allocTraceBuf somewhere) = .ok (-1, b') ∧
      Intact (allocTraceBuf somewhere) b' := by
  have int : Fetch.Ints ⟨-1, fun _ => none, 0, []⟩ := ⟨by decide, by decide⟩
  obtain ⟨intact, refused | ⟨positive, _⟩⟩ :=
    failed_fetch_intact_iff (.alloc : Reached somewhere _) int (.inl (by decide))
  · exact intact.mpr refused
  · cases positive

/-- `mremap` is not called for what fits. -/
theorem fits_not_refused (h : b.Sound) (fit : f.asked ≤ b.size.toNat - roundUp b.used 8) :
    ¬ f.Refused b := by
  rintro ⟨k, more, _⟩
  have : b.size.toNat * 1 ≤ b.size.toNat * 2 ^ k := Nat.mul_le_mul_left _ Nat.one_le_two_pow
  have same : b.align.size = b.size := rfl
  rw [h.align.2, same] at more
  omega

/-- With a negative result the position moves back, over what is stored. -/
theorem negative_read (h : b.Sound) (none : f.data = []) (never : ¬ f.Refused b) :
    ∃ b', fetchTrace f b = .ok (0, b') ∧
      b'.ptr - b'.buf = BitVec.ofNat 64 (roundUp b.used 8) + BitVec.ofInt 64 f.n := by
  obtain ⟨grown, kept, used, _, ⟨_, refused⟩ | ⟨stored, _, _⟩⟩ := @fetchTrace_cases f b h
  · exact absurd refused never
  · have inside : grown.region.base.toNat ≤ grown.ptr.toNat ∧ grown.ptr.toNat + f.data.length ≤
        grown.region.base.toNat + grown.region.bytes.length := by
      rw [none, kept.base, kept.length]
      exact ⟨kept.low, kept.high⟩
    rw [Region.write, if_pos inside] at stored
    refine ⟨_, stored, ?_⟩
    have offset : grown.ptr - grown.buf = BitVec.ofNat 64 (roundUp b.used 8) := by
      rw [← used, Buf.used, BitVec.ofNat_toNat, BitVec.setWidth_eq]
    show grown.ptr + BitVec.ofInt 64 f.n - grown.buf = _
    rw [← offset]
    rw [BitVec.sub_eq_add_neg, BitVec.sub_eq_add_neg, BitVec.add_assoc, BitVec.add_assoc,
      BitVec.add_comm (BitVec.ofInt 64 f.n)]

/-- `cs_get_trace_data` answers -1 for 16 unread bytes: `fetch_trace` returns 0
with the position before the base, and `export_trace` computes a length of
2^64 - 1. -/
theorem negative_read_wraps : let f : Fetch := ⟨16, fun _ => none, -1, []⟩
    Reached somewhere (allocTraceBuf somewhere) ∧ f.Ints ∧ f.Fails (allocTraceBuf somewhere) ∧
    (∃ b', fetchTrace f (allocTraceBuf somewhere) = .ok (0, b') ∧ b'.used = 2 ^ 64 - 1) ∧
    ¬ ∃ b', fetchTrace f (allocTraceBuf somewhere) = .ok (-1, b') ∧
      Intact (allocTraceBuf somewhere) b' := by
  intro f
  have sound : (allocTraceBuf somewhere).Sound := reached_sound .alloc
  have empty : roundUp (allocTraceBuf somewhere).used 8 = 0 := by
    rw [Buf.used, allocTraceBuf, Buf.map, BitVec.sub_self]
    rfl
  have never : ¬ f.Refused (allocTraceBuf somewhere) := by
    apply fits_not_refused sound
    rw [empty]
    decide
  obtain ⟨b', done, offset⟩ := @negative_read f _ sound rfl never
  refine ⟨.alloc, ⟨by decide, by decide⟩, .inr (.inl (by decide)), ⟨b', done, ?_⟩, ?_⟩
  · rw [Buf.used, offset, empty]
    rfl
  · rintro ⟨b'', failed, _⟩
    rw [done] at failed
    cases failed

/-! ## A short fetch -/

/-- `cs_get_trace_data` delivers the first `n` of the unread bytes. -/
structure Fetch.Delivers (f : Fetch) (unread : List UInt8) : Prop where
  len : f.len = unread.length
  int : f.len < 2 ^ 31
  n : 0 ≤ f.n ∧ f.n ≤ f.len
  data : f.data = unread.take f.n.toNat

variable {unread : List UInt8}

theorem Fetch.Delivers.length (d : f.Delivers unread) : (f.data.length : Int) = f.n := by
  have := d.len
  have := d.n
  rw [d.data, List.length_take]
  omega

theorem Fetch.Delivers.asked (d : f.Delivers unread) : f.asked = unread.length := by
  have := d.len
  have := d.int
  rw [Fetch.asked, BitVec.toNat_ofInt]
  omega

/-- What is delivered is stored at the aligned position. -/
theorem fetch_room (h : b.Sound) (d : f.Delivers unread) (never : ¬ f.Refused b) :
    ∃ b', fetchTrace f b = .ok (0, b') ∧ exportTrace b' = exportTrace b.align ++ f.data := by
  obtain ⟨grown, kept, used, contents, ⟨_, refused⟩ | ⟨stored, room, _⟩⟩ :=
    @fetchTrace_cases f b h
  · exact absurd refused never
  · have start := kept.used_add
    have inside := kept.used_le
    have length := d.length
    have asked := d.asked
    have len := d.len
    have n := d.n
    have below : grown.used + f.data.length ≤ grown.size.toNat := by omega
    have fits := kept.fits
    rw [Region.write, if_pos ⟨by rw [kept.base]; omega, by rw [kept.base, kept.length]; omega⟩]
      at stored
    refine ⟨_, stored, ?_⟩
    have offset : grown.ptr.toNat - grown.region.base.toNat = grown.used := by
      rw [kept.base]
      omega
    have moved : (grown.ptr + BitVec.ofInt 64 f.n - grown.buf).toNat =
        grown.used + f.data.length := by
      rw [← length, BitVec.ofInt_natCast, BitVec.toNat_sub, BitVec.toNat_add, BitVec.toNat_ofNat]
      omega
    have before : (grown.region.bytes.take grown.used).length = grown.used := by
      rw [List.length_take, kept.length]
      omega
    show ((grown.region.splice _ f.data).bytes.drop (grown.buf.toNat - grown.region.base.toNat)).take
      _ = b.align.contents ++ f.data
    rw [← contents, kept.contents_eq, moved, offset, kept.base, Nat.sub_self, List.drop_zero,
      Region.splice]
    apply List.take_left'
    rw [List.length_append, before]

/-- **A short fetch.** `fetch_trace` returns 0 only with all unread bytes in the
buffer exactly if all were delivered, or else `mremap` refused a doubling and it
does not return 0. -/
theorem fetch_discards_nothing_iff {p : Placement defaultTraceSize.toNat} (h : Reached p b)
    (d : f.Delivers unread) :
    (∀ b', fetchTrace f b = .ok (0, b') → exportTrace b' = exportTrace b.align ++ unread) ↔
      f.n = f.len ∨ f.Refused b := by
  have sound := reached_sound h
  by_cases refused : f.Refused b
  · refine iff_of_true ?_ (.inr refused)
    obtain ⟨grown, _, _, _, ⟨failed, _⟩ | ⟨_, _, never⟩⟩ := @fetchTrace_cases f b sound
    · intro b' done
      rw [failed] at done
      cases done
    · exact absurd refused never
  · obtain ⟨b', done, stored⟩ := fetch_room sound d refused
    have len := d.len
    have length := d.length
    constructor
    · intro complete
      have all := complete b' done
      rw [stored] at all
      have same := congrArg List.length (List.append_cancel_left all)
      left
      omega
    · rintro (all | no)
      · intro b'' done'
        rw [done] at done'
        cases done'
        rw [stored, d.data, all, len, Int.toNat_natCast, List.take_length]
      · exact absurd no refused

/-- Two unread bytes, both delivered. -/
theorem both_delivered : let f : Fetch := ⟨2, fun _ => none, 2, [4, 5]⟩
    ∀ b', fetchTrace f (allocTraceBuf somewhere) = .ok (0, b') →
      exportTrace b' = exportTrace (allocTraceBuf somewhere).align ++ [4, 5] :=
  (fetch_discards_nothing_iff (.alloc : Reached somewhere _)
    ⟨rfl, by decide, by decide, rfl⟩).mpr (.inl rfl)

/-- Two unread bytes, of which one is delivered: `fetch_trace` returns 0, and
the other is thrown away. -/
theorem short_read_loses : let f : Fetch := ⟨2, fun _ => none, 1, [4]⟩
    f.Delivers [4, 5] ∧ Reached somewhere (allocTraceBuf somewhere) ∧
    ∃ b', fetchTrace f (allocTraceBuf somewhere) = .ok (0, b') ∧
      exportTrace b' = exportTrace (allocTraceBuf somewhere).align ++ [4] ∧
      exportTrace b' ≠ exportTrace (allocTraceBuf somewhere).align ++ [4, 5] := by
  intro f
  have short : f.Delivers [4, 5] := ⟨rfl, by decide, by decide, rfl⟩
  have sound : (allocTraceBuf somewhere).Sound := reached_sound .alloc
  have never : ¬ f.Refused (allocTraceBuf somewhere) := by
    apply fits_not_refused sound
    rw [Buf.used, allocTraceBuf, Buf.map, BitVec.sub_self]
    decide
  obtain ⟨b', done, stored⟩ := fetch_room sound short never
  refine ⟨short, .alloc, b', done, stored, ?_⟩
  rw [stored]
  intro all
  have same := List.append_cancel_left all
  cases same

end Ultrasight.TraceBuffer
