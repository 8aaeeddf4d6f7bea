import RecordText.Text.Quoted

/-!
# What is logged

The library reports what it does as events. A computation that reports events has type
`Logged`; its events stand in the order in which they happened.
-/

namespace RecordText

/-- How much an entry of the log matters. -/
inductive Level
  | trace
  | debug
deriving DecidableEq

/-- The level as an entry shows it. -/
def Level.label : Level → String
  | trace => "TRACE"
  | debug => "DEBUG"

/-- What there is to report. -/
inductive Event
  /-- A value of so many bytes is about to be labelled. -/
  | labelling (bytes : Nat)
  /-- The record of this name is about to be summarized. -/
  | summarizing (name : String)
  /-- So many records have been loaded. -/
  | loaded (count : Nat)
deriving DecidableEq

namespace Event

/-- How much an event matters. -/
def level : Event → Level
  | labelling _ | summarizing _ => .trace
  | loaded _ => .debug

/-- The event in words. -/
def message : Event → String
  | labelling bytes => "Formatting value of " ++ toString bytes ++ " bytes"
  | summarizing name => "Describing record " ++ Text.quoted name
  | loaded count => "Loaded " ++ toString count ++ " records"

/-- The entry of the log. -/
def line (e : Event) : String := e.level.label ++ " " ++ e.message

end Event

/-- A result together with the events on the way to it. -/
@[ext]
structure Logged (α : Type) where
  value : α
  events : List Event
deriving DecidableEq

namespace Logged

instance : Monad Logged where
  pure a := ⟨a, []⟩
  bind x f := ⟨(f x.value).value, x.events ++ (f x.value).events⟩

/-- Reports one event. -/
def report (e : Event) : Logged Unit := ⟨(), [e]⟩

@[simp] theorem value_pure {α : Type} (a : α) : (pure a : Logged α).value = a := rfl

@[simp] theorem events_pure {α : Type} (a : α) : (pure a : Logged α).events = [] := rfl

@[simp] theorem value_bind {α β : Type} (x : Logged α) (f : α → Logged β) :
    (x >>= f).value = (f x.value).value := rfl

@[simp] theorem events_bind {α β : Type} (x : Logged α) (f : α → Logged β) :
    (x >>= f).events = x.events ++ (f x.value).events := rfl

@[simp] theorem events_report (e : Event) : (report e).events = [e] := rfl

theorem bind_assoc {α β γ : Type} (x : Logged α) (f : α → Logged β) (g : β → Logged γ) :
    x >>= f >>= g = x >>= fun a => f a >>= g :=
  Logged.ext rfl (List.append_assoc _ _ _)

instance : LawfulMonad Logged :=
  LawfulMonad.mk' Logged (fun x => Logged.ext rfl (List.append_nil x.events)) (fun _ _ => rfl)
    bind_assoc

end Logged

end RecordText
