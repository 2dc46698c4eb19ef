import Mathlib.Algebra.Group.Int.Defs
import Ultrasight.Regions

/-!
# The trace buffer

`fetch_trace` appends what the ETB holds to a buffer that doubles until the
chunk fits. A call is a function of the device's answers and of the kernel's;
`Run` strings calls together after one allocation.
-/

namespace Ultrasight.TraceBuffer

open Chunks

def defaultTraceSize : BitVec 64 := 0x80000

/-- `alloc_trace_buf` when `mmap` succeeds at `p`. -/
def allocTraceBuf (p : Placement defaultTraceSize.toNat) : Buf := .map defaultTraceSize p

/-- The answers one call of `fetch_trace` gets: the unread count, where
`mremap` moves the buffer for each size it is asked for (`none` for
`MAP_FAILED`), and the result and the bytes of `cs_get_trace_data`. -/
structure Fetch where
  len : Int
  remap : Remap
  n : Int
  data : List UInt8

inductive Grown where
  | room (b : Buf)
  | failed (b : Buf)

/-- `while ((size_t)len > buf_remain)`: double until `len` bytes fit, or leave
when `mremap` fails. -/
def growLoop (f : Fetch) : Nat → Buf → Except Abort Grown
  | 0, _ => .error .outOfFuel
  | fuel + 1, b =>
    if b.remain < BitVec.ofInt 64 f.len then
      match f.remap (b.size * 2) with
      | none => .ok (.failed b)
      | some p => growLoop f fuel (b.move (b.size * 2) p)
    else .ok (.room b)

/-- Rounds enough for any size to wrap to 0, where `mremap` fails. -/
def growFuel : Nat := 65

/-- `fetch_trace`: its result and the buffer it leaves. -/
def fetchTrace (f : Fetch) (b : Buf) : Except Abort (Int × Buf) :=
  match growLoop f growFuel b.align with
  | .error stop => .error stop
  | .ok (.failed b) => .ok (-1, b)
  | .ok (.room b) =>
    (b.region.write b.ptr f.data).map fun region =>
      (0, { b with ptr := b.ptr + BitVec.ofInt 64 f.n, region := region })

/-- What `export_trace` writes to the file. -/
def exportTrace (b : Buf) : List UInt8 := b.contents

/-- `cs_get_trace_data` delivers at most the unread bytes, and says how many. -/
structure Fetch.Honest (f : Fetch) : Prop where
  counted : f.n = f.data.length
  enough : (f.data.length : Int) ≤ f.len
  int : f.len < 2 ^ 31

theorem Fetch.Honest.len_toNat {f : Fetch} (h : f.Honest) :
    (BitVec.ofInt 64 f.len).toNat = f.len.toNat ∧ f.data.length ≤ f.len.toNat := by
  have := h.enough
  have := h.int
  rw [BitVec.toNat_ofInt]
  omega

variable {f : Fetch} {b : Buf} {content : List UInt8}

theorem growLoop_fits {fuel : Nat} (h : ¬ b.remain < BitVec.ofInt 64 f.len) :
    growLoop f (fuel + 1) b = .ok (.room b) := by
  rw [growLoop, if_neg h]

/-- How the growth loop ends: with the content kept, and with room for all
unread bytes unless `mremap` failed. -/
theorem growLoop_spec (honest : f.Honest) {fuel k : Nat} (h : b.Holds content)
    (size : b.size.toNat = 2 ^ k) (enough : 64 ≤ fuel + k) :
    ∃ b', b'.Holds content ∧
      (growLoop f fuel b = .ok (.failed b') ∨ growLoop f fuel b = .ok (.room b') ∧
        content.length + f.data.length ≤ b'.size.toNat) := by
  induction fuel generalizing b k with
  | zero =>
    have := b.size.isLt
    have : 2 ^ 64 ≤ 2 ^ k := Nat.pow_le_pow_right (by decide) (by omega)
    omega
  | succ fuel ih =>
    simp only [growLoop]
    split
    · cases moved : f.remap (b.size * 2) with
      | none => exact ⟨b, h, .inl rfl⟩
      | some p =>
        obtain ⟨kept, twice⟩ := h.move p
        have next : (b.move (b.size * 2) p).size.toNat = 2 ^ (k + 1) := by
          rw [twice, size, Nat.pow_succ']
        exact ih kept next (by omega)
    · rename_i fits
      obtain ⟨len, delivered⟩ := honest.len_toNat
      have room := h.room
      rw [BitVec.lt_def, h.remain, len] at fits
      exact ⟨b, h, .inr ⟨rfl, by omega⟩⟩

/-- The loop does not fail while `mremap` grants twice what is needed. -/
theorem growLoop_granted (honest : f.Honest) {fuel : Nat} (h : b.Holds content)
    (grants : f.remap.Grants (2 * (content.length + f.len.toNat))) (b' : Buf) :
    growLoop f fuel b ≠ .ok (.failed b') := by
  induction fuel generalizing b with
  | zero => exact nofun
  | succ fuel ih =>
    intro failed
    simp only [growLoop] at failed
    split at failed
    · rename_i more
      rw [BitVec.lt_def, h.remain, honest.len_toNat.1] at more
      split at failed
      · rename_i refused
        exact grants.double h.size_pos (by omega) refused
      · rename_i p moved
        exact ih (h.move p).1 failed
    · cases failed

/-- Once there is room, the chunk is appended. -/
theorem fetchTrace_room (honest : f.Honest) {grown : Buf}
    (room : growLoop f growFuel b.align = .ok (.room grown)) (h : grown.Holds content)
    (fit : content.length + f.data.length ≤ grown.size.toNat) :
    ∃ b', fetchTrace f b = .ok (0, b') ∧ b'.Holds (content ++ f.data) ∧ b'.size = grown.size := by
  obtain ⟨b', appended, holds, size⟩ := h.append fit
  refine ⟨b', ?_, holds, size⟩
  simp only [Buf.append] at appended
  simp only [fetchTrace, room, honest.counted, BitVec.ofInt_natCast]
  cases written : grown.region.write grown.ptr f.data with
  | error => rw [written] at appended; cases appended
  | ok region =>
    rw [written] at appended
    cases appended
    rfl

/-- **One fetch.** It returns; either `mremap` failed and nothing but the
alignment changed, or the chunk was appended at the next multiple of 8. -/
theorem fetchTrace_spec (honest : f.Honest) (h : b.Holds content) :
    (∃ b', fetchTrace f b = .ok (-1, b') ∧ b'.Holds (padTo 8 0 content)) ∨
    ∃ b', fetchTrace f b = .ok (0, b') ∧ b'.Holds (padTo 8 0 content ++ f.data) := by
  have aligned := h.align
  obtain ⟨k, size⟩ := aligned.double
  have enough : 64 ≤ growFuel + (k + 3) := by simp only [growFuel]; omega
  obtain ⟨grown, kept, failed | ⟨room, fit⟩⟩ := growLoop_spec honest aligned size enough
  · exact .inl ⟨grown, by simp only [fetchTrace, failed], kept⟩
  · obtain ⟨b', done, holds, _⟩ := fetchTrace_room honest room kept fit
    exact .inr ⟨b', done, holds⟩

/-- A fetch that `mremap` lets grow appends the chunk. -/
theorem fetchTrace_granted (honest : f.Honest) (h : b.Holds content)
    (grants : f.remap.Grants (2 * ((padTo 8 0 content).length + f.len.toNat))) :
    ∃ b', fetchTrace f b = .ok (0, b') ∧ b'.Holds (padTo 8 0 content ++ f.data) := by
  have aligned := h.align
  obtain ⟨k, size⟩ := aligned.double
  have enough : 64 ≤ growFuel + (k + 3) := by simp only [growFuel]; omega
  obtain ⟨grown, kept, failed | ⟨room, fit⟩⟩ := growLoop_spec honest aligned size enough
  · exact absurd failed (growLoop_granted honest aligned grants grown)
  · obtain ⟨b', done, holds, _⟩ := fetchTrace_room honest room kept fit
    exact ⟨b', done, holds⟩

/-- When the chunk fits without growing, `mremap` is not called. -/
theorem fetchTrace_fits (honest : f.Honest) (h : b.Holds content)
    (fit : (padTo 8 0 content).length + f.len.toNat ≤ b.size.toNat) :
    ∃ b', fetchTrace f b = .ok (0, b') ∧ b'.size = b.size := by
  have aligned := h.align
  have size : b.align.size = b.size := rfl
  have room : growLoop f growFuel b.align = .ok (.room b.align) := by
    apply growLoop_fits
    rw [BitVec.lt_def, aligned.remain, honest.len_toNat.1, size]
    omega
  have delivered := honest.len_toNat.2
  obtain ⟨b', done, _, same⟩ := fetchTrace_room honest room aligned (by rw [size]; omega)
  exact ⟨b', done, same⟩

/-- Any number of successful fetches after `alloc_trace_buf` at `p`. -/
inductive Run (p : Placement defaultTraceSize.toNat) : List Fetch → Buf → Prop
  | alloc : Run p [] (allocTraceBuf p)
  | fetch {fs : List Fetch} {f : Fetch} {b b' : Buf} : Run p fs b → f.Honest →
      fetchTrace f b = .ok (0, b') → Run p (fs ++ [f]) b'

theorem run_holds {p : Placement defaultTraceSize.toNat} {fs : List Fetch} {b : Buf}
    (h : Run p fs b) : b.Holds (layout 8 0 (fs.map Fetch.data)) := by
  induction h with
  | alloc => exact Buf.holds_map p ⟨16, by decide⟩
  | fetch _ honest done ih =>
    rw [List.map_append, List.map_singleton, layout_snoc]
    rcases fetchTrace_spec honest ih with ⟨b', failed, _⟩ | ⟨b', done', holds⟩
    · rw [done] at failed; cases failed
    · rw [done] at done'; cases done'; exact holds

/-- **The exported bytes are the chunks, in order.** In every state a run of
fetches reaches, the position is inside the buffer, the next fetch returns
without a store outside it, and the export is the layout of the chunks at
multiples of 8 with zeros between them. If `mremap` succeeds for every size that
can be asked for, the next fetch returns 0 and its chunk is exported behind the
others. -/
theorem run_exports_layout {p : Placement defaultTraceSize.toNat} {fs : List Fetch} {b : Buf}
    (h : Run p fs b) :
    (b.buf.toNat ≤ b.ptr.toNat ∧ b.ptr.toNat ≤ b.buf.toNat + b.size.toNat) ∧
    (∀ f : Fetch, f.Honest → ∃ result, fetchTrace f b = .ok result) ∧
    exportTrace b = layout 8 0 (fs.map Fetch.data) ∧
    ∀ f : Fetch, f.Honest → f.remap.Grants (2 * ((exportTrace b).length + 8 + f.len.toNat)) →
      ∃ b', fetchTrace f b = .ok (0, b') ∧ Run p (fs ++ [f]) b' ∧
        exportTrace b' = layout 8 0 ((fs ++ [f]).map Fetch.data) := by
  have holds := run_holds h
  have stored : exportTrace b = layout 8 0 (fs.map Fetch.data) := holds.contents_eq
  refine ⟨holds.inside, ?_, stored, ?_⟩
  · intro f honest
    rcases fetchTrace_spec honest holds with ⟨b', done, _⟩ | ⟨b', done, _⟩
    · exact ⟨_, done⟩
    · exact ⟨_, done⟩
  · intro f honest grants
    have padded : (padTo 8 0 (layout 8 0 (fs.map Fetch.data))).length ≤
        (exportTrace b).length + 8 := by
      rw [stored, padTo_length (by decide), roundUp]
      omega
    obtain ⟨b', done, _⟩ := fetchTrace_granted honest holds fun size pos below =>
      grants size pos (by omega)
    have run := h.fetch honest done
    exact ⟨b', done, run, (run_holds run).contents_eq⟩

def somewhere : Placement defaultTraceSize.toNat :=
  ⟨0x7f0000000000#64, by decide, by decide, by decide, by decide⟩

def sixteen : Placement (16 : BitVec 64).toNat :=
  ⟨0x1000, by decide, by decide, by decide, by decide⟩

/-- An `mremap` that moves a region of less than 2^32 bytes to one place. -/
def elsewhere : Remap := fun size =>
  if h : size.toNat < 2 ^ 32 ∧ 0 < size.toNat then
    some ⟨0x7e0000000000#64, by decide, by decide,
      Nat.lt_trans (Nat.add_lt_add_left h.1 _) (by decide), h.2⟩
  else none

theorem elsewhere_grants : elsewhere.Grants (2 ^ 32) := by
  intro size pos below
  rw [elsewhere, dif_pos ⟨below, pos⟩]
  rfl

/-- Three bytes and then 0x80000, the size of the buffer: it is moved once. -/
theorem two_fetches_exported : ∃ b,
    Run somewhere [⟨3, fun _ => none, 3, [1, 2, 3]⟩,
      ⟨0x80000, elsewhere, 0x80000, List.replicate 0x80000 7⟩] b ∧
    exportTrace b = [1, 2, 3, 0, 0, 0, 0, 0] ++ List.replicate 0x80000 7 ∧
    defaultTraceSize.toNat < (exportTrace b).length := by
  have first : Fetch.Honest ⟨3, fun _ => none, 3, [1, 2, 3]⟩ := ⟨rfl, by decide, by decide⟩
  have length : (List.replicate 0x80000 (7 : UInt8)).length = 0x80000 := List.length_replicate
  have second : Fetch.Honest ⟨0x80000, elsewhere, 0x80000, List.replicate 0x80000 7⟩ :=
    ⟨by rw [length]; rfl, by rw [length]; decide, by decide⟩
  have empty : (allocTraceBuf somewhere).Holds [] := run_holds .alloc
  obtain ⟨b₁, done₁, _⟩ := fetchTrace_fits first empty (by decide)
  have run₁ := Run.fetch .alloc first done₁
  obtain ⟨_, _, three, next⟩ := run_exports_layout run₁
  have few : (exportTrace b₁).length = 3 := by rw [three]; rfl
  obtain ⟨b₂, _, run₂, stored⟩ := next _ second fun size pos below =>
    elsewhere_grants size pos (Nat.lt_trans below (by rw [few]; decide))
  have exported : exportTrace b₂ = [1, 2, 3, 0, 0, 0, 0, 0] ++ List.replicate 0x80000 7 := stored
  refine ⟨b₂, run₂, exported, ?_⟩
  rw [exported, List.length_append, length]
  decide

/-! ## Fetches that may fail -/

/-- The buffer holds the chunks; a fetch that failed has aligned the position. -/
def Lays (b : Buf) (chunks : List (List UInt8)) : Prop :=
  b.Holds (layout 8 0 chunks) ∨ b.Holds (padTo 8 0 (layout 8 0 chunks))

theorem Lays.align {chunks : List (List UInt8)} (h : Lays b chunks) :
    b.align.Holds (padTo 8 0 (layout 8 0 chunks)) := by
  rcases h with h | h
  · exact h.align
  · have aligned := h.align
    rwa [padTo_padTo (by decide)] at aligned

/-- A fetch that fails leaves the chunks, one that succeeds adds its own. -/
theorem lays_fetch {chunks : List (List UInt8)} (honest : f.Honest) (h : Lays b chunks) :
    (∃ b', fetchTrace f b = .ok (-1, b') ∧ Lays b' chunks) ∨
    ∃ b', fetchTrace f b = .ok (0, b') ∧ b'.Holds (layout 8 0 (chunks ++ [f.data])) := by
  have spec : (∃ b', fetchTrace f b = .ok (-1, b') ∧ b'.Holds (padTo 8 0 (layout 8 0 chunks))) ∨
      ∃ b', fetchTrace f b = .ok (0, b') ∧
        b'.Holds (padTo 8 0 (layout 8 0 chunks) ++ f.data) := by
    rcases h with h | h
    · exact fetchTrace_spec honest h
    · have spec := fetchTrace_spec honest h
      rwa [padTo_padTo (by decide)] at spec
  rcases spec with ⟨b', done, holds⟩ | ⟨b', done, holds⟩
  · exact .inl ⟨b', done, .inr holds⟩
  · rw [← layout_snoc] at holds
    exact .inr ⟨b', done, holds⟩

theorem Lays.exported {chunks : List (List UInt8)} (h : Lays b chunks) :
    exportTrace b = layout 8 0 chunks ∨ exportTrace b = padTo 8 0 (layout 8 0 chunks) :=
  h.imp Buf.Holds.contents_eq Buf.Holds.contents_eq

end Ultrasight.TraceBuffer
