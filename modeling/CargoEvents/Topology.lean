/-! # Topology

The exchange that all services publish to, the queue a service's instances share, and how
many unacknowledged deliveries a consumer may hold.
-/
namespace CargoEvents

inductive ExchangeKind
  | direct | fanout | topic
  deriving DecidableEq, Repr

def ExchangeKind.all : List ExchangeKind := [.direct, .fanout, .topic]

def ExchangeKind.name : ExchangeKind → String
  | .direct => "direct"
  | .fanout => "fanout"
  | .topic => "topic"

def ExchangeKind.ofName? (name : String) : Option ExchangeKind := all.find? (·.name == name)

@[simp] theorem ExchangeKind.ofName?_name (k : ExchangeKind) : ofName? k.name = some k := by
  cases k <;> rfl

structure ExchangeDeclaration where
  name : String
  kind : ExchangeKind := .direct
  durable : Bool := true
  autoDelete : Bool := false
  deriving DecidableEq, Repr

structure QueueDeclaration where
  name : String
  durable : Bool := true
  exclusive : Bool := false
  autoDelete : Bool := false
  deriving DecidableEq, Repr

structure Qos where
  prefetchCount : UInt16 := 1
  prefetchSize : UInt32 := 0
  isGlobal : Bool := false
  deriving DecidableEq, Repr

structure Topology where
  exchange : ExchangeDeclaration
  queue : QueueDeclaration
  qos : Qos := {}
  deriving DecidableEq, Repr

def defaultExchange : String := "shipping"

def queueName (service : String) : String := service ++ ".queue"

def Topology.forService (service : String) (exchange : String := defaultExchange) : Topology :=
  { exchange := { name := exchange }, queue := { name := queueName service } }

end CargoEvents
