/-
# `Host.ConfigFile` — applying the options of a file

`config_load_options_file` looks at the sign of what `str2options` returns and then
applies and frees `optv`, whether it has been set or not.  `apply_config_options` sends
an option to the device; the number for `gpio` it reads from the key, and the one for
`trimdac` goes through a 16-bit parameter.
-/
import BladeRF.Host.Options

namespace BladeRF

open Lib (CStr Literal literal)

def erange : ℕ := 34

section

variable (b : Board) (readers : FloatReaders)

end

/-! ## What is asked for -/

section

variable {b : Board} {readers : FloatReaders} {d : ScopeDevice} {buf : List (BitVec 8)}
  {opt : ConfigOption} {calls : List DeviceCall}

variable {gpio trimdac gpio' trimdac' : Option ℕ}

end

end BladeRF
