import CargoEvents.Broker.Consuming
import CargoEvents.Call

/-! # Calls on a session

What a service asks of its session with a broker, whatever the broker is: `σ` is what the
calls act on. A topology is declared, and events are announced, by the same calls on all.
-/
namespace CargoEvents

structure SessionCalls (σ : Type) where
  declareExchange : ExchangeDeclaration → Call BrokerError σ Unit
  declareQueue : QueueDeclaration → Call BrokerError σ Unit
  setQos : Qos → Call BrokerError σ Unit
  bindQueue : (queue exchange key : String) → Call BrokerError σ Unit
  publish : (exchange : String) → Message → Call BrokerError σ Unit

namespace SessionCalls
variable {σ : Type}

/-- Exchange, queue and prefetch, up to the first that fails. -/
def declare (calls : SessionCalls σ) (t : Topology) : Call BusError σ Unit :=
  ExceptT.adapt .topologyFailed do
    calls.declareExchange t.exchange
    calls.declareQueue t.queue
    calls.setQos t.qos

def bind (calls : SessionCalls σ) (t : Topology) (key : String) : Call BusError σ Unit :=
  ExceptT.adapt (.subscriptionFailed key) (calls.bindQueue t.queue.name t.exchange.name key)

def publishEvent (calls : SessionCalls σ) (exchange : String) (e : Event) : Call BusError σ Unit :=
  ExceptT.adapt (.publishFailed e.kind.name) (calls.publish exchange (.ofEvent e))

end SessionCalls

namespace Broker

def call (op : Broker → Except BrokerError Broker) : Call BrokerError Broker Unit :=
  .ofExcept fun b => (op b).map fun b' => ((), b')

def calls (s : Nat) : SessionCalls Broker where
  declareExchange x := call (·.declareExchange s x)
  declareQueue q := call (·.declareQueue s q)
  setQos qos := call (·.setQos s qos)
  bindQueue queue exchange key := call (·.bindQueue s queue exchange key)
  publish exchange m := call (·.publish s exchange m)

end Broker
end CargoEvents
