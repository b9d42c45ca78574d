/-!
# Fixed bounds

Every table and every text of the system has a fixed room. The bounds are gathered here, so that a
law about one of them names it instead of a number. All lengths of text are counted in UTF-8 bytes.
-/

namespace TopicTree

/-- Bytes of payload that one frame can carry. -/
abbrev frameCapacity : Nat := 512

/-- Children that one node can have. -/
abbrev maxChildren : Nat := 4

/-- Methods that one node can offer. -/
abbrev maxMethods : Nat := 8

/-- Bytes in the name of a node. -/
abbrev maxName : Nat := 32

/-- Bytes in the name of a method that is offered or asked for. -/
abbrev maxMethodName : Nat := 24

/-- Requests of one node that may await their response at once. -/
abbrev maxPending : Nat := 2

/-- Listeners that one link can have. -/
abbrev maxListeners : Nat := 2

/-- Bytes in the segments of a path, its anchor left out. -/
abbrev maxPath : Nat := 128

/-- Bytes in the method, or the name of a notification, that a message carries. -/
abbrev maxTitle : Nat := 128

/-- Bytes of method parameters or notification data. -/
abbrev maxParams : Nat := 128

/-- Nodes, links and bridges in one tree. -/
abbrev maxEntries : Nat := 16

/-- Topic filters that one client session can hold. -/
abbrev maxFilters : Nat := 4

/-- Topic filters that one SUBSCRIBE packet can carry. -/
abbrev maxSubscribe : Nat := 8

/-- Bytes of client identifier that a session can hold. -/
abbrev maxClientId : Nat := 64

/-- Slots of a message pool whose size nobody chose. -/
abbrev defaultPoolSize : Nat := 8

/-- Routing steps after which a message counts as lost in a loop. -/
abbrev maxHops : Nat := 4 * maxEntries

end TopicTree
