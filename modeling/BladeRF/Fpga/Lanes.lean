/-
# `Fpga.Lanes` — lanes and samples

The sample ports of the data paths, one for each stream.
-/
import BladeRF.Fpga.Gpif

namespace BladeRF

/-- The two streams of the 2×2 designs (`NUM_STREAMS = 2`). -/
abbrev Lane := Fin 2

/-- `sample_control_t` -/
structure SampleControl where
  enable : Bool := false
  dataReq : Bool := false

/-- `sample_stream_t` -/
structure SampleStream where
  dataI : BitVec 16 := 0
  dataQ : BitVec 16 := 0
  dataV : Bool := false
deriving DecidableEq

end BladeRF
