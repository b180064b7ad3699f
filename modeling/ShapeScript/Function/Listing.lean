import ShapeScript.Function.Registry
import ShapeScript.Text.Quoted

/-!
Listings of host functions: name and parameters in one line.
-/

namespace ShapeScript.Listing

def hostFunction (f : HostFunction) : String :=
  "NativeFunction \x7b name: " ++ Quoted.quote f.name
    ++ ", params: [" ++ ", ".intercalate (f.params.map (·.label)) ++ "], .. \x7d"

end ShapeScript.Listing
