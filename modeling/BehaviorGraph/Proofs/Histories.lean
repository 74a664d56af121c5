import BehaviorGraph.Session.Clock
import BehaviorGraph.Session.Frame
import BehaviorGraph.Session.Registration
/-!
# Histories of a Session

What happens to a session, one event after the other.

An event is one call from outside: an object or a scene comes or goes, a graph is
baked, a run is started or goes on. Runs are not tied to one another. Each event lets
one of them do one step, or sets the clock, so that every order in which a scheduler
may take them is a history; waiting for a run until it is finished is an event as well.
Graphs are edited by others while the session goes on, in any way.

Objects are told apart by the ids under which they are spawned. What a history spawns
can be read off its events, in the order in which it happens.

## Main definitions

* `Event`: What can happen to a session.
* `Event.spawned`: The ids of the objects that an event spawns.
* `Session.happen`, `Session.after`: A session after an event, and after some.

## Theorems

* `Session.after_append`: A history that goes on.
-/

namespace BehaviorGraph

/-- What can happen to a session. -/
inductive Event where
  /-- An object is spawned. -/
  | spawn (id : ObjectId) (o : SceneObject)
  /-- An object is removed with its descendants. -/
  | despawn (id : ObjectId)
  /-- A scene is loaded. -/
  | loadScene (scene : String) (objects : List (ObjectId × SceneObject))
  /-- The objects of a scene are registered. -/
  | sceneLoaded (scene : String)
  /-- A scene is unloaded. -/
  | unloadScene (scene : String)
  /-- Everything that is registered is forgotten. -/
  | shutdown
  /-- The graphs have been edited. -/
  | author (library : Library)
  /-- A graph is baked. -/
  | bake (graph : GraphRef)
  /-- A full run is started. -/
  | startFull (graph : GraphRef)
  /-- A run is started from a trigger. -/
  | startFrom (graph : GraphRef) (trigger : NodeId)
  /-- An object is clicked on. -/
  | click (id : ObjectId)
  /-- A frame of input is taken. -/
  | tick (keys : List Key) (actions : List String)
  /-- A run does one step. -/
  | turn (run : Nat)
  /-- The clock is set, and the delays end whose time has come. -/
  | clock (time : Nat)
  /-- Runs go on until a time has passed. -/
  | advance (ms : Nat)
  /-- A run is waited for. -/
  | finish (run : Nat)
  /-- A single step is performed outside of any run. -/
  | execute (st : Step)

namespace Event

/-- The ids of the objects that an event spawns, in their order. -/
def spawned : Event → List ObjectId
  | spawn id _ => [id]
  | loadScene _ objects => objects.map Prod.fst
  | _ => []

/-- The objects that a scene is loaded with belong to it. -/
def staysInScene : Event → Bool
  | loadScene scene objects => objects.all fun e => e.2.scene = scene
  | _ => true

end Event

namespace Session

/-- The session after an event. -/
def happen (e : Event) (s : Session) : Session :=
  match e with
  | .spawn id o => s.spawn id o
  | .despawn id => (s.despawn id).2
  | .loadScene scene objects => (s.loadScene scene objects).2
  | .sceneLoaded scene => (s.sceneLoaded scene).2
  | .unloadScene scene => (s.unloadScene scene).2
  | .shutdown => s.shutdown
  | .author library => { s with library }
  | .bake graph => (s.bake graph).2
  | .startFull graph => (s.startFull graph).2
  | .startFrom graph trigger => (s.startFrom graph trigger).2
  | .click id => (s.click id).2
  | .tick keys actions => (s.tick keys actions).2
  | .turn run => s.turn run
  | .clock time => { s with now := time, runs := s.runs.map (Run.awaken time) }
  | .advance ms => s.advance ms
  | .finish run => (s.finish run).2
  | .execute st => (s.execute st).2

/-- The session after some events. -/
def after (s : Session) (events : List Event) : Session :=
  events.foldl (fun s e => s.happen e) s

@[simp]
theorem after_nil (s : Session) : s.after [] = s :=
  rfl

@[simp]
theorem after_cons (s : Session) (e : Event) (events : List Event) :
    s.after (e :: events) = (s.happen e).after events :=
  rfl

theorem after_append (s : Session) (events later : List Event) :
    s.after (events ++ later) = (s.after events).after later :=
  List.foldl_append

theorem after_concat (s : Session) (events : List Event) (e : Event) :
    s.after (events ++ [e]) = (s.after events).happen e :=
  s.after_append events [e]

end Session

end BehaviorGraph
