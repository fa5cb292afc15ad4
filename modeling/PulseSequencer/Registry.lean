import PulseSequencer.Error
import PulseSequencer.Handle
import PulseSequencer.Scalar

/-!
This module contains the registry of triggers and of the channels bound to them. A trigger is a strobe that rises once
per cycle; a channel that is bound to it starts to play when it rises.
-/

namespace PulseSequencer

structure Trigger (α : Type) where
  name : String
  output : Nat
  /-- When the strobe rises, in seconds after the start of the cycle. -/
  raiseAt : α
  dropAfter : α
  linked : List ChannelId
deriving Repr

structure Channel where
  name : String
  trigger : Option TriggerId
deriving Repr

structure Registry (α : Type) where
  triggers : List (Trigger α)
  channels : List Channel
deriving Repr

namespace Registry

variable {α : Type}

def empty : Registry α := ⟨[], []⟩

instance : Inhabited (Registry α) := ⟨empty⟩

/--
How a handle is called that stands for nothing.
-/
def foreignName (index : Nat) : String := "#" ++ toString index

def trigger (r : Registry α) (id : TriggerId) : Except (Error α) (Trigger α) :=
  match r.triggers[id.index]? with
  | some t => .ok t
  | none => .error (.unknown .trigger (foreignName id.index))

def channel (r : Registry α) (id : ChannelId) : Except (Error α) Channel :=
  match r.channels[id.index]? with
  | some c => .ok c
  | none => .error (.unknown .channel (foreignName id.index))

def channelName (r : Registry α) (id : ChannelId) : String :=
  match r.channels[id.index]? with
  | some c => c.name
  | none => "<unregistered>"

def triggerOf (r : Registry α) (id : ChannelId) : Except (Error α) (Trigger α) := do
  let c ← r.channel id
  match c.trigger with
  | some t => r.trigger t
  | none => .error (.unlinkedChannel c.name)

def findTrigger? (r : Registry α) (name : String) : Option TriggerId :=
  (r.triggers.findIdx? (·.name == name)).map .mk

def findChannel? (r : Registry α) (name : String) : Option ChannelId :=
  (r.channels.findIdx? (·.name == name)).map .mk

def triggerId (r : Registry α) (name : String) : Except (Error α) TriggerId :=
  match r.findTrigger? name with
  | some id => .ok id
  | none => .error (.unknown .trigger name)

def channelId (r : Registry α) (name : String) : Except (Error α) ChannelId :=
  match r.findChannel? name with
  | some id => .ok id
  | none => .error (.unknown .channel name)

def defaultDropAfter [Scalar α] : α := 4e-6

def addTrigger (r : Registry α) (name : String) (output : Nat) (raiseAt dropAfter : α) :
    Except (Error α) (Registry α × TriggerId) := do
  checkName .trigger name
  if (r.findTrigger? name).isSome then
    .error (.duplicateName .trigger name (r.triggers.map (·.name)))
  else
    .ok ({ r with triggers := r.triggers ++ [⟨name, output, raiseAt, dropAfter, []⟩] }, ⟨r.triggers.length⟩)

def addChannel (r : Registry α) (name : String) : Except (Error α) (Registry α × ChannelId) := do
  checkName .channel name
  if (r.findChannel? name).isSome then
    .error (.duplicateName .channel name (r.channels.map (·.name)))
  else
    .ok ({ r with channels := r.channels ++ [⟨name, none⟩] }, ⟨r.channels.length⟩)

def unlinkFrom (id : ChannelId) (t : Trigger α) : Trigger α :=
  { t with linked := t.linked.filter (· != id) }

def linkTo (id : ChannelId) (t : Trigger α) : Trigger α :=
  { t with linked := t.linked ++ [id] }

def link (r : Registry α) (id : ChannelId) (target : TriggerId) : Except (Error α) (Registry α) := do
  let _ ← r.trigger target
  let c ← r.channel id
  if c.trigger = some target then
    .ok r
  else
    let freed := match c.trigger with
      | some old => r.triggers.modify old.index (unlinkFrom id)
      | none => r.triggers
    .ok {
      triggers := freed.modify target.index (linkTo id)
      channels := r.channels.set id.index { c with trigger := some target } }

end Registry

end PulseSequencer
