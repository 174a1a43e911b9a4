import ObjectNavigation.Script.Surface
/-!
Scripts: what a node body or an accessor does, as data. A script ends with an outcome, or takes a
step and goes on with the answer. The steps that need the engine (reading through a child,
assigning through it, asking about it, calling a method) are only named here; what they mean is
given where scripts are run. `C` names what a script can reach: the child slots of its node for a
body, trees and nodes for an accessor.

A step that fails does not end the script: its failure is an answer. `do` blocks pass failures on.
-/
namespace ObjectNavigation

/-- What can be asked about a node without evaluating it. -/
inductive Question where
  /-- Is its value independent of the source? -/
  | constant
  /-- Is every child slot filled with a constant node? -/
  | childrenConstant
  /-- Is it a plain property read? -/
  | simpleProperty
  /-- Is it a property read or a chain of them? -/
  | simpleChain
  deriving DecidableEq

inductive Invocation where
  | onTarget (target : Value) (name : String) (arguments : List Value)
  | onType (typeName name : String) (arguments : List Value)

inductive Script (C α : Type) : Type where
  | done (outcome : Except EvalError α)
  | get (child : C) (source : Value) (next : Except EvalError Value → Script C α)
  | set (child : C) (target value : Value) (next : Except EvalError Unit → Script C α)
  | ask (child : C) (question : Question) (next : Except EvalError Bool → Script C α)
  | invoke (call : Invocation) (next : Except EvalError Value → Script C α)
  | look (next : Surface → Script C α)
  | locate (next : Position → Script C α)
  | alter (change : Surface → Surface) (next : Script C α)

namespace Script
variable {C α β : Type}

/-- `script` with every ending replaced by what `next` makes of its outcome. -/
def andThen (script : Script C α) (next : Except EvalError α → Script C β) : Script C β :=
  match script with
  | done outcome => next outcome
  | get child source rest => get child source fun answer => (rest answer).andThen next
  | set child target value rest => set child target value fun answer => (rest answer).andThen next
  | ask child question rest => ask child question fun answer => (rest answer).andThen next
  | invoke call rest => invoke call fun answer => (rest answer).andThen next
  | look rest => look fun surface => (rest surface).andThen next
  | locate rest => locate fun position => (rest position).andThen next
  | alter change rest => alter change (rest.andThen next)

def succeed (value : α) : Script C α := done (.ok value)

def fail (error : EvalError) : Script C α := done (.error error)

/-- What a failure-free continuation makes of an outcome. -/
def onOk (next : α → Script C β) : Except EvalError α → Script C β
  | .ok value => next value
  | .error error => fail error

instance : Monad (Script C) where
  pure := succeed
  bind script next := script.andThen (onOk next)

theorem andThen_done (script : Script C α) : script.andThen done = script := by
  induction script with
  | done outcome => rfl
  | get child source rest ih => simp [andThen, ih]
  | set child target value rest ih => simp [andThen, ih]
  | ask child question rest ih => simp [andThen, ih]
  | invoke call rest ih => simp [andThen, ih]
  | look rest ih => simp [andThen, ih]
  | locate rest ih => simp [andThen, ih]
  | alter change rest ih => simp [andThen, ih]

theorem andThen_andThen {γ : Type} (script : Script C α) (f : Except EvalError α → Script C β)
    (g : Except EvalError β → Script C γ) :
    (script.andThen f).andThen g = script.andThen fun outcome => (f outcome).andThen g := by
  induction script with
  | done outcome => rfl
  | get child source rest ih => simp [andThen, ih]
  | set child target value rest ih => simp [andThen, ih]
  | ask child question rest ih => simp [andThen, ih]
  | invoke call rest ih => simp [andThen, ih]
  | look rest ih => simp [andThen, ih]
  | locate rest ih => simp [andThen, ih]
  | alter change rest ih => simp [andThen, ih]

theorem onOk_succeed : onOk (succeed (C := C) (α := α)) = done := by
  funext outcome
  cases outcome <;> rfl

theorem bind_eq_andThen (script : Script C α) (next : α → Script C β) :
    script >>= next = script.andThen (onOk next) := rfl

theorem pure_bind_script (value : α) (next : α → Script C β) :
    (pure value : Script C α) >>= next = next value := rfl

theorem id_map_script (script : Script C α) : id <$> script = script := by
  show script.andThen (onOk succeed) = script
  rw [onOk_succeed, andThen_done]

theorem bind_assoc_script {γ : Type} (script : Script C α) (f : α → Script C β)
    (g : β → Script C γ) : script >>= f >>= g = script >>= fun value => f value >>= g := by
  show (script.andThen _).andThen _ = script.andThen _
  rw [andThen_andThen]
  congr 1
  funext outcome
  cases outcome <;> rfl

instance : LawfulMonad (Script C) :=
  LawfulMonad.mk' _ id_map_script pure_bind_script bind_assoc_script

def getValue (child : C) (source : Value) : Script C Value := get child source done

def setValue (child : C) (target value : Value) : Script C Unit := set child target value done

def question (child : C) (question : Question) : Script C Bool := ask child question done

def call (call : Invocation) : Script C Value := invoke call done

def surface : Script C Surface := look succeed

def position : Script C Position := locate succeed

def change (change : Surface → Surface) : Script C Unit := alter change (succeed ())

def note (event : Event) : Script C Unit := change (·.note event)

def heap : Script C Heap := look fun surface => succeed surface.heap

def newList (items : List Value) : Script C Value := do
  let (value, heap) := (← heap).newList items
  change (·.withHeap heap)
  return value

def attempt (script : Script C α) : Script C (Except EvalError α) :=
  script.andThen succeed

end Script
end ObjectNavigation
