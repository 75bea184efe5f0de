/-
Purpose: Two endpoints that stay open, and the two channels between them, which
  lose and reorder nothing.
-/
import Mathlib.Logic.Function.Basic
import Crouton.Blip.Source

namespace Crouton.Blip
open Endpoint

inductive Side where
  | left
  | right
deriving Repr, DecidableEq

namespace Side

def other : Side → Side
  | .left => .right
  | .right => .left

@[simp] theorem other_other (side : Side) : side.other.other = side := by
  cases side <;> rfl

@[simp] theorem other_ne (side : Side) : side.other ≠ side := by
  cases side <;> simp [other]

theorem eq_or_other (side here : Side) : here = side ∨ here = side.other := by
  cases side <;> cases here <;> simp [other]

end Side

/-- A connection.  `wire` holds the frames that each side has sent and the other
has not yet got, and `delivered` those that it has; all that is delivered of them
is their bytes. -/
structure Network (env : Env) where
  endpoint : Side → Endpoint env := fun _ => {}
  wire : Side → List Sent := fun _ => []
  delivered : Side → List Sent := fun _ => []

/-- What can happen: a program sends a request or responds to one, a connection
asks its endpoint for the next frame and sends it, or the first frame on its way to
an endpoint is delivered. -/
inductive Action where
  | sendRequest (side : Side) (builder : BuiltMessage)
  | respond (side : Side) (index : Nat) (builder : BuiltMessage)
  | pull (side : Side)
  | deliver (side : Side)

/-- The builder of the action, if it has one, does not ask for compression. -/
def Action.uncompressed : Action → Bool
  | .sendRequest _ builder => !builder.val.compressed
  | .respond _ _ builder => !builder.val.compressed
  | _ => true

namespace Network

variable {env : Env}

/-- The network after a call at one side; what the call sent goes onto the wire. -/
def perform (network : Network env) (side : Side) (call : Call) : Network env :=
  let before := network.endpoint side
  let after := before.step call
  { network with
    endpoint := Function.update network.endpoint side after
    wire := Function.update network.wire side
      (network.wire side ++ after.sent.drop before.sent.length) }

def step (network : Network env) : Action → Network env
  | .sendRequest side builder => network.perform side (.sendRequest builder)
  | .respond side index builder => network.perform side (.respond index builder)
  | .pull side => network.perform side .pull
  | .deliver side =>
    match network.wire side.other with
    | [] => network
    | sent :: later =>
      { network with
        wire := Function.update network.wire side.other later
        delivered := Function.update network.delivered side.other
          (network.delivered side.other ++ [sent]) }.perform side
        (.receive sent.frame.encode)

/-! ### What a call leaves alone -/

variable (network : Network env) (side : Side) (call : Call)

@[simp] theorem perform_endpoint :
    (network.perform side call).endpoint side = (network.endpoint side).step call :=
  Function.update_self _ _ _

@[simp] theorem perform_endpoint_other :
    (network.perform side call).endpoint side.other = network.endpoint side.other :=
  Function.update_of_ne side.other_ne _ _

@[simp] theorem perform_wire :
    (network.perform side call).wire side =
      network.wire side ++
        ((network.endpoint side).step call).sent.drop (network.endpoint side).sent.length :=
  Function.update_self _ _ _

@[simp] theorem perform_wire_other :
    (network.perform side call).wire side.other = network.wire side.other :=
  Function.update_of_ne side.other_ne _ _

@[simp] theorem perform_delivered : (network.perform side call).delivered = network.delivered := rfl

/-- The network after the first frame on its way to a side was delivered. -/
structure Delivers (side : Side) (sent : Sent) (later : List Sent)
    (before after : Network env) : Prop where
  receiver : after.endpoint side = (before.endpoint side).step (.receive sent.frame.encode)
  sender : after.endpoint side.other = before.endpoint side.other
  delivered : after.delivered side.other = before.delivered side.other ++ [sent]
  deliveredBack : after.delivered side = before.delivered side
  wire : after.wire side.other = later
  wireBack : after.wire side = before.wire side

theorem step_deliver {sent : Sent} {later : List Sent}
    (first : network.wire side.other = sent :: later) :
    Delivers side sent later network (network.step (.deliver side)) := by
  rw [step, first]
  dsimp only
  refine ⟨?_, ?_, ?_, ?_, ?_, ?_⟩
  · rw [perform_endpoint]
  · rw [perform_endpoint_other]
  · simp
  · rw [perform_delivered]
    exact Function.update_of_ne side.other_ne.symm _ _
  · simp
  · rw [perform_wire, step_sent (by simp), List.drop_length, List.append_nil]
    exact Function.update_of_ne side.other_ne.symm _ _

section

variable {network after : Network env} {side : Side} {call : Call} {sent : Sent}
  {later : List Sent} {holds : Endpoint env → Prop}
  (before : ∀ side, holds (network.endpoint side))

include before

/-- What is so of each endpoint by itself, after a call at one side. -/
theorem perform_forall (next : holds ((network.endpoint side).step call)) (here : Side) :
    holds ((network.perform side call).endpoint here) := by
  rcases side.eq_or_other here with rfl | rfl
  · rwa [perform_endpoint]
  · rw [perform_endpoint_other]
    exact before side.other

/-- What is so of each endpoint by itself, after a frame was delivered to one side. -/
theorem Delivers.forall (delivers : Delivers side sent later network after)
    (next : holds ((network.endpoint side).step (.receive sent.frame.encode))) (here : Side) :
    holds (after.endpoint here) := by
  rcases side.eq_or_other here with rfl | rfl
  · rwa [delivers.receiver]
  · rw [delivers.sender]
    exact before side.other

end

end Network

end Crouton.Blip
