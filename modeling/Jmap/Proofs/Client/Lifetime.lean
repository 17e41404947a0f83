import Jmap.Proofs.Client.Operation

/-! A client in use. Operations change the state that it is in, and registries that are
enabled change what it understands. -/
namespace Jmap

structure Live (A : Type) where
  client : Client A
  state : ClientState

inductive Event (A : Type) : Type 1 where
  | operation (operation : Operation A)
  | enable (registry : Registry A)

namespace Live
variable {A : Type} [Json.Writable A]

def answer (live : Live A) (operation : Operation A) : Except Error operation.Answer :=
  (Action.apply (operation.perform live.client) live.state).1

def step (live : Live A) : Event A → Live A
  | .operation operation => {live with state := live.client.next live.state operation}
  | .enable registry => {live with client := live.client.enable registry}

def run (live : Live A) (events : List (Event A)) : Live A := events.foldl step live

theorem answer_eq (live : Live A) (operation : Operation A) :
    live.answer operation = (operation.effect live.client live.state).outcome.mapError Fault.error :=
  (operation.perform_hasEffect live.client live.state).result

end Live
end Jmap
