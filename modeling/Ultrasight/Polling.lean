import Ultrasight.Ring

/-!
# The fetch threshold

`fetcher_worker` derives a threshold from the sizes of the ETR ring and of the
first ETF; `trace_sink_polling` compares it with the distance of the write
position from a position it sampled earlier.
-/

namespace Ultrasight.Polling

/-- `etr_ram_size` as `fetcher_worker` leaves it: asked from the device when no
u-dma-buf size is known. -/
def etrCapacity (etrRamSize etbBytes : BitVec 64) : BitVec 64 :=
  if etrRamSize = 0 then etbBytes else etrRamSize

/-- `fetch_threshold` of `fetcher_worker`; `etf` is the size of
`devices.trace_sinks[0]` when there is one. -/
def fetchThreshold (etrRamSize : BitVec 64) (etf : Option (BitVec 64)) : BitVec 64 :=
  match etf with
  | some etfRamSize => if etfRamSize < etrRamSize then etfRamSize * 2 else etrRamSize
  | none => etrRamSize

/-- `curr_offset > fetch_threshold`, with `curr_offset = rwp - init_pos`. -/
def overThreshold (fetchThreshold rwp initPos : BitVec 64) : Bool :=
  fetchThreshold < rwp - initPos

/-- The sizes for which the threshold can be passed before the ring wraps. -/
def Fits (capacity : BitVec 64) (etf : Option (BitVec 64)) : Prop :=
  ∃ etfRamSize, etf = some etfRamSize ∧ etfRamSize < capacity ∧ etfRamSize * 2 < capacity

theorem threshold_lt_iff (capacity : BitVec 64) (etf : Option (BitVec 64)) :
    fetchThreshold capacity etf < capacity ↔ Fits capacity etf := by
  cases etf with
  | none => simp [fetchThreshold, Fits]
  | some f =>
    simp only [fetchThreshold, Fits, Option.some.injEq, exists_eq_left']
    by_cases small : f < capacity
    · simp [small]
    · simp [small, BitVec.lt_irrefl]

/-- The ring of the default u-dma-buf, 0x80000 bytes. -/
def defaultRing : Ring := ⟨0x60000000#64, 0x80000, by decide, by decide, by decide⟩

/-- The threshold for that ring and an ETF of the default size. -/
def defaultThreshold : BitVec 64 := fetchThreshold (etrCapacity 0x80000 0) (some 0x1000)

end Ultrasight.Polling
