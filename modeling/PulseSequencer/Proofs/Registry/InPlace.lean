import PulseSequencer.Proofs.Outcome
import PulseSequencer.Proofs.Registry.Bindings

/-!
This module contains the registration of triggers and channels in place: what is written stays written even if a later step
fails. It comes to the same as to hand over a new registry at the end, since each operation looks at everything before it
writes anything.
-/

namespace PulseSequencer

def checkFree {α : Type} (kind : NameKind) (name : String) (taken : List String) : Except (Error α) Unit :=
  if name ∈ taken then .error (.duplicateName kind name taken) else .ok ()

namespace Registry

variable {α : Type}

open Outcome

def addTriggerInPlace (name : String) (output : Nat) (raiseAt dropAfter : α) (r : Registry α) :
    Outcome α (Registry α) TriggerId :=
  (check (checkName .trigger name) r).andThen fun _ r =>
  (check (checkFree .trigger name r.triggerNames) r).andThen fun _ r =>
  (write (fun r => { r with triggers := r.triggers ++ [⟨name, output, raiseAt, dropAfter, []⟩] }) r).andThen fun _ r =>
  .done ⟨r.triggers.length - 1⟩ r

def addChannelInPlace (name : String) (r : Registry α) : Outcome α (Registry α) ChannelId :=
  (check (checkName .channel name) r).andThen fun _ r =>
  (check (checkFree .channel name r.channelNames) r).andThen fun _ r =>
  (write (fun r => { r with channels := r.channels ++ [⟨name, none⟩] }) r).andThen fun _ r =>
  .done ⟨r.channels.length - 1⟩ r

def freed (ch : ChannelId) (old : Option TriggerId) (triggers : List (Trigger α)) : List (Trigger α) :=
  match old with
  | some old => triggers.modify old.index (unlinkFrom ch)
  | none => triggers

def linkInPlace (ch : ChannelId) (target : TriggerId) (r : Registry α) : Outcome α (Registry α) Unit :=
  (check (r.trigger target) r).andThen fun _ r =>
  (check (r.channel ch) r).andThen fun c r =>
  if c.trigger = some target then
    .done () r
  else
    (write (fun r => { r with triggers := freed ch c.trigger r.triggers }) r).andThen fun _ r =>
    (write (fun r => { r with triggers := r.triggers.modify target.index (linkTo ch) }) r).andThen fun _ r =>
    write (fun r => { r with channels := r.channels.modify ch.index ({ · with trigger := some target }) }) r

variable {r : Registry α} {name : String} {ch : ChannelId} {target : TriggerId}

theorem addTriggerInPlace_eq (r : Registry α) (name : String) (output : Nat) (raiseAt dropAfter : α) :
    r.addTriggerInPlace name output raiseAt dropAfter = settle r (r.addTrigger name output raiseAt dropAfter) := by
  have taken : (r.findTrigger? name).isSome = true ↔ name ∈ r.triggerNames := by
    simp [findTrigger?, triggerNames]
  unfold addTriggerInPlace addTrigger checkFree
  cases checkName (α := α) .trigger name with
  | error cause => rfl
  | ok named =>
    simp only [taken, check_ok_andThen]
    split
    · rfl
    · simp [settle, bind, Except.bind]

theorem addChannelInPlace_eq (r : Registry α) (name : String) :
    r.addChannelInPlace name = settle r (r.addChannel name) := by
  have taken : (r.findChannel? name).isSome = true ↔ name ∈ r.channelNames := by
    rw [← not_iff_not, ← findChannel?_eq_none_iff]
    simp
  unfold addChannelInPlace addChannel checkFree
  cases checkName (α := α) .channel name with
  | error cause => rfl
  | ok named =>
    simp only [taken, check_ok_andThen]
    split
    · rfl
    · simp [settle, bind, Except.bind]

theorem rebind_eq {c : Channel} (found : r.channel ch = .ok c) :
    r.rebind ch target c
      = ⟨(freed ch c.trigger r.triggers).modify target.index (linkTo ch),
          r.channels.modify ch.index ({ · with trigger := some target })⟩ := by
  have bound : r.channels.modify ch.index ({ · with trigger := some target })
      = r.channels.set ch.index { c with trigger := some target } := by
    rw [List.modify_eq_set_getElem?, channel_eq_ok_iff.mp found]
    rfl
  rw [bound]
  rfl

theorem linkInPlace_eq (r : Registry α) (ch : ChannelId) (target : TriggerId) :
    r.linkInPlace ch target = settle r ((r.link ch target).map (·, ())) := by
  unfold linkInPlace
  cases here : r.trigger target with
  | error cause =>
    have refused : r.link ch target = .error cause := bind_eq_error_iff.mpr (.inl here)
    rw [refused]
    rfl
  | ok t =>
    rw [check_ok_andThen]
    cases there : r.channel ch with
    | error cause =>
      have refused : r.link ch target = .error cause :=
        bind_eq_error_iff.mpr (.inr ⟨t, here, bind_eq_error_iff.mpr (.inl there)⟩)
      rw [refused]
      rfl
    | ok c =>
      rw [check_ok_andThen, link_eq_ok_iff.mpr ⟨t, c, here, there, rfl⟩, rebind_eq there]
      split
      · rfl
      · rfl

end Registry

end PulseSequencer
