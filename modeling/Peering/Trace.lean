import Peering.Lookup.Query

/-!
# Traces

What a resolution does beyond its answer: it leaves notices in the log and puts queries to the resolver at the bottom.
Both are events, and a `Run` is a computation with the list of its events, which either returns a value or crashes.
Events before a crash stay (`Run.events_bind`).
-/

namespace Peering

/-- How loud a notice is. -/
inductive Level where
  | debug
  | error
deriving DecidableEq

/-- What is worth a line in the log. -/
inductive Notice where
  /-- A blocking resolution of a hostname begins. -/
  | resolvingEndpoint (host service : String)
  /-- A resolution of a hostname in the background begins. -/
  | startingLookup (host service : String)
  /-- A host was found in a table of overrides. -/
  | overridden (domain : String) (count : Nat)
  /-- There is nothing to run a lookup in the background. -/
  | noRuntime (host : String)
  /-- A lookup was torn down before it had an answer. -/
  | lookupDropped (code : Int)
  /-- A contact of a configuration did not resolve. -/
  | contactFailed (contact error : String)
  /-- A configuration is being read from a file. -/
  | loadingConfig (path : String)
  /-- The system is asked for a name. -/
  | systemLookup (domain service : String)
  /-- The system did not know a name. -/
  | systemFailed (domain : String) (code : Int) (error : String)
  /-- The system's answer gave some results. -/
  | systemComplete (domain : String) (count : Nat)
  /-- The background task of a system lookup was lost. -/
  | systemTaskFailed (error : String)
  /-- A name server client was set up from the system's configuration. -/
  | clientConfigured
  /-- A name server is asked for a name. -/
  | clientLookup (domain : String)
  /-- The name server did not know a name. -/
  | clientFailed (domain error : String)
  /-- The name server's answer gave some results. -/
  | clientComplete (domain : String) (count : Nat)
deriving DecidableEq

/-- A field of a line in the log. -/
inductive LogField where
  | text (s : String)
  | number (n : Int)
deriving DecidableEq

namespace Notice

/-- How loud a notice is. -/
def level : Notice → Level
  | systemTaskFailed _ => .error
  | _ => .debug

/-- The text of a notice. -/
def message : Notice → String
  | resolvingEndpoint .. => "resolving hostname endpoint"
  | startingLookup .. => "starting async hostname lookup"
  | overridden .. => "resolved from overrides"
  | noRuntime _ => "no tokio runtime for async lookup"
  | lookupDropped _ => "lookup dropped before completing"
  | contactFailed .. => "contact resolution failed"
  | loadingConfig _ => "loading peer configuration"
  | systemLookup .. => "resolving via getaddrinfo"
  | systemFailed .. => "DNS resolution failed"
  | systemComplete .. => "DNS resolution complete"
  | systemTaskFailed _ => "DNS resolution task failed"
  | clientConfigured => "Using system DNS configuration"
  | clientLookup _ => "resolving via hickory-dns"
  | clientFailed .. => "hickory-dns lookup failed"
  | clientComplete .. => "hickory-dns resolution complete"

/-- The fields of a notice. -/
def fields : Notice → List (String × LogField)
  | resolvingEndpoint host service => [("host", .text host), ("service", .text service)]
  | startingLookup host service => [("host", .text host), ("service", .text service)]
  | overridden domain count => [("domain", .text domain), ("count", .number count)]
  | noRuntime host => [("host", .text host)]
  | lookupDropped code => [("code", .number code)]
  | contactFailed contact error => [("contact", .text contact), ("error", .text error)]
  | loadingConfig path => [("path", .text path)]
  | systemLookup domain service => [("domain", .text domain), ("service", .text service)]
  | systemFailed domain code error => [("domain", .text domain), ("code", .number code), ("error", .text error)]
  | systemComplete domain count => [("domain", .text domain), ("count", .number count)]
  | systemTaskFailed error => [("error", .text error)]
  | clientConfigured => []
  | clientLookup domain => [("domain", .text domain)]
  | clientFailed domain error => [("domain", .text domain), ("error", .text error)]
  | clientComplete domain count => [("domain", .text domain), ("count", .number count)]

end Notice

/-- Something that a resolution does beyond its answer. -/
inductive Event where
  /-- A line in the log. -/
  | notice (n : Notice)
  /-- A query put to the resolver at the bottom. -/
  | asked (q : Query)
deriving DecidableEq

/-- The notices among events. -/
def Event.notices (events : List Event) : List Notice :=
  events.filterMap fun
    | .notice n => some n
    | .asked _ => none

/-- The queries among events. -/
def Event.queries (events : List Event) : List Query :=
  events.filterMap fun
    | .notice _ => none
    | .asked q => some q

/-- A computation with its events; without a value it has crashed. -/
structure Run (α : Type) where
  events : List Event
  value? : Option α

namespace Run

variable {α β : Type}

/-- Returns at once. -/
protected def pure (a : α) : Run α := ⟨[], some a⟩

/-- Goes on with the value, if there is one. -/
protected def bind (x : Run α) (f : α → Run β) : Run β :=
  match x.value? with
  | none => ⟨x.events, none⟩
  | some a => ⟨x.events ++ (f a).events, (f a).value?⟩

instance : Monad Run where
  pure := Run.pure
  bind := Run.bind

/-- Leaves one event. -/
def emit (e : Event) : Run Unit := ⟨[e], some ()⟩

/-- Leaves a line in the log. -/
def notice (n : Notice) : Run Unit := emit (.notice n)

/-- Puts a query to the resolver at the bottom. -/
def ask (q : Query) : Run Unit := emit (.asked q)

/-- Stops without a value. -/
def crash : Run α := ⟨[], none⟩

/-- A value, or a crash where there is none. -/
def ofOption : Option α → Run α
  | some a => .pure a
  | none => crash

/-- The value of a computation, or nothing where it crashes. -/
def attempt (x : Run α) : Run (Option α) := ⟨x.events, some x.value?⟩

/-! ## Events and values -/

@[simp] theorem events_pure (a : α) : (pure a : Run α).events = [] := rfl

@[simp] theorem value?_pure (a : α) : (pure a : Run α).value? = some a := rfl

/-- The events of a computation stay, whatever comes after it. -/
theorem events_bind (x : Run α) (f : α → Run β) :
    (x >>= f).events = x.events ++ ((x.value?.map fun a => (f a).events).getD []) := by
  show (Run.bind x f).events = _
  unfold Run.bind
  cases x.value? <;> simp

theorem value?_bind (x : Run α) (f : α → Run β) : (x >>= f).value? = x.value?.bind fun a => (f a).value? := by
  show (Run.bind x f).value? = _
  unfold Run.bind
  cases x.value? <;> rfl

theorem map_id (x : Run α) : id <$> x = x := by
  show Run.bind x (fun a => Run.pure a) = x
  obtain ⟨e, _ | a⟩ := x <;> simp [Run.bind, Run.pure]

theorem bind_of_pure (a : α) (f : α → Run β) : (pure a : Run α) >>= f = f a := by
  show Run.bind (Run.pure a) f = f a
  simp [Run.bind, Run.pure]

theorem bind_assoc {γ : Type} (x : Run α) (f : α → Run β) (g : β → Run γ) :
    x >>= f >>= g = x >>= fun a => f a >>= g := by
  show Run.bind (Run.bind x f) g = Run.bind x fun a => Run.bind (f a) g
  obtain ⟨e, _ | a⟩ := x
  · rfl
  · simp only [Run.bind]
    cases (f a).value? <;> simp

instance : LawfulMonad Run := LawfulMonad.mk' Run map_id bind_of_pure bind_assoc

end Run

end Peering
