import StackStep.Dict
import StackStep.Value

/-!
The variables of the machine.
-/

namespace StackStep

abbrev Env := Dict Value

namespace Env

def bind (env : Env) (name : Bytes) (v : Value) : Env := env.insert name v

/-- The value bound to a name, `0` if there is none. -/
def lookup (env : Env) (name : Bytes) : Value := (env.find? name).getD .zero

/-- The bindings in order, each as the bare name and the value. -/
def render (env : Env) : Bytes :=
  ("\x7b" : Bytes) ++
    Bytes.join ", " (env.entries.map fun b => b.1 ++ (": " : Bytes) ++ b.2.render) ++
    ("\x7d" : Bytes)

end Env

end StackStep
