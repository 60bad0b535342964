import Componentry.Class.Resolve
import Componentry.Engine.Mount

/-!
# Using a runtime

What can be asked of a runtime from outside: classes and assets for all, instances, and acting on
an instance that is not in use.

- `Runtime.extend`, `Runtime.mixin`, `Runtime.component`: classes.
- `Runtime.create`: an instance.
- `Runtime.set`, `Runtime.call`, `Runtime.emit`: acting on an instance.
-/

namespace Componentry

open Json (Value)
open Eng (withAccess forging)

namespace Runtime

variable (rt : Runtime)

/-! ## Classes -/

/-- A class under another. -/
def extend (above : ClassId) (definition : Options) : Eng ClassId :=
  forging (Classes.extend rt.config above definition)

def resolve (c : ClassId) : Eng (Placed Options) := forging (Classes.resolve rt.config c)

/-- The class of an entry among the components; definitions become classes under the base. -/
def classFor (entry : ComponentRef Options) : Eng (Option ClassId) :=
  forging (Classes.classFor rt.config rt.base entry)

/-- Merges a definition into what every class starts from. -/
def mixin (definition : Options) : Eng Unit :=
  forging (Classes.mixin rt.config rt.base definition)

/-- Registers a class for all under a name. -/
def register (name : String) (c : ClassId) : Eng Unit :=
  forging (Classes.register rt.config rt.base name c)

/-- Makes a class of a definition and registers it for all. -/
def component (name : String) (definition : Options) : Eng ClassId :=
  forging (Classes.component rt.config rt.base name definition)

def directive (name : String) : Eng Unit := forging (Classes.directive rt.config rt.base name)

def filter (name : String) (e : Expr) : Eng Unit :=
  forging (Classes.filter rt.base name e)

/-- Compiles a template with plain settings. -/
def compile (template : String) : Eng CompiledTemplate :=
  Eng.compile rt
    { decodeNewlines := rt.decodeNewlines, decodeHrefNewlines := rt.decodeHrefNewlines } template

/-! ## Instances -/

/-- An instance of a class, with a definition of its own. -/
def create (c : ClassId) (definition : Options) : Eng InstanceId := do
  let vm ← Eng.allocate c
  rt.setUp vm (.root definition)
  return vm

def set (vm : InstanceId) (key : String) (v : Value) : Eng Bool :=
  withAccess vm .exclusive (Eng.set rt rt.run vm key v)

def call (vm : InstanceId) (method : String) (args : List Value) :
    Eng (Except HookError Value) :=
  withAccess vm .exclusive (Eng.callMethod rt.run vm method args)

def emit (vm : InstanceId) (event : String) (args : List Value) : Eng Unit :=
  withAccess vm .exclusive (Eng.emit rt rt.run vm event args)

def warn (vm : InstanceId) (message : String) : Eng Unit :=
  withAccess vm .shared (Eng.warn rt vm message)

def report (vm : InstanceId) (e : HookError) (info : String) : Eng Unit :=
  withAccess vm .shared (Eng.report rt rt.run vm e info)

def callHook (vm : InstanceId) (h : Hook) : Eng Unit := Eng.callHook rt rt.run vm h

/-- A render function run for an instance. -/
def render (vm : InstanceId) (f : RenderBody) : Eng (Except HookError VNode) :=
  Eng.renderWith rt rt.run vm f

end Runtime

end Componentry
