/-
# Tracing.Recorder -- all trackers of a program

Trackers are shared by call site: the first call with a name and a tag creates
the tracker of the site, later ones find it.  Acquiring a tracker looks the site
up and, if it is unknown, stores a new tracker unless another one has been
stored in the meantime.

Events go to one logger, and only while tracing is switched on.  A logger may
fail; the trackers do not notice.
-/
import ComposeStability.Tracing.Tracker

namespace ComposeStability.Tracing

set_option autoImplicit false

/-! ## Call sites -/

/-- What identifies a call site. -/
structure Site where
  name : String
  tag : String
deriving DecidableEq, Repr

/-- Which tracker is meant. -/
abbrev Handle := Nat

/-- The trackers that have been created, and those that are shared. -/
structure Registry where
  trackers : List Tracker := []
  shared : List (Site × Handle) := []

namespace Registry

/-- The tracker of a site. -/
def find? (r : Registry) (site : Site) : Option Handle := r.shared.lookup site

/-- Creates a tracker that is not shared. -/
def create (r : Registry) (site : Site) (threshold : Int) : Handle × Registry :=
  (r.trackers.length,
   { r with trackers := r.trackers ++ [.new site.name site.tag threshold] })

/-- Stores a tracker for a site unless the site has one, and returns the stored one. -/
def findOrStore (r : Registry) (site : Site) (new : Handle) : Handle × Registry :=
  match r.find? site with
  | some found => (found, r)
  | none => (new, { r with shared := (site, new) :: r.shared })

/-- The tracker of a site, created when the site is new. -/
def acquire (r : Registry) (site : Site) (threshold : Int) : Handle × Registry :=
  match r.find? site with
  | some found => (found, r)
  | none =>
      let (new, r) := r.create site threshold
      r.findOrStore site new

def get? (r : Registry) (h : Handle) : Option Tracker := r.trackers[h]?

def set (r : Registry) (h : Handle) (t : Tracker) : Registry :=
  { r with trackers := r.trackers.set h t }

end Registry

/-! ## Loggers -/

/-- Who receives events. -/
inductive Logger where
  /-- Keeps events. -/
  | collector
  /-- A function that keeps events. -/
  | callback
  /-- A function that fails. -/
  | failing
  /-- Writes lines of text. -/
  | console
  /-- Writes records. -/
  | structured
  /-- Writes lines of text for errors, where nobody looks; used when no other logger is set. -/
  | standard
deriving DecidableEq, Repr

namespace Logger

/-- The plainest logger of the same kind. -/
def plain : Logger → Logger
  | .failing => .callback
  | .standard => .console
  | logger => logger

/-- The events that a logger keeps of those it receives. -/
def kept (l : Logger) (e : Event) : List Event :=
  if l = .collector ∨ l = .callback then [e] else []

/-- What a logger writes for an event. -/
def written (l : Logger) (colour : Bool) (e : Event) : String :=
  match l with
  | .console => e.text colour
  | .structured => e.logged false .debug .debug
  | _ => ""

end Logger

/-! ## Tracing -/

/-- The trackers, the switch and the logger. -/
structure Recorder where
  registry : Registry := {}
  enabled : Bool := true
  logger : Logger := .standard

namespace Recorder

/-- Something that happens in a traced program. -/
inductive Action where
  | acquire (site : Site) (threshold : Int)
  | create (site : Site) (threshold : Int)
  | track (h : Handle) (name type : String) (value : Value) (stable : Bool)
  | flush (h : Handle)
  | enable (on : Bool)
  | useLogger (logger : Logger)

/-- What an action leads to: a tracker or the delivery of an event. -/
structure Outcome where
  handle : Option Handle := none
  delivered : Option (Logger × Event) := none

/-- Hands an event to the logger, if tracing is switched on. -/
def publish (r : Recorder) (e : Option Event) : Option (Logger × Event) :=
  if r.enabled then e.map fun e => (r.logger, e) else none

/-- Performs an action. -/
def step (r : Recorder) : Action → Outcome × Recorder
  | .acquire site threshold =>
      let (h, registry) := r.registry.acquire site threshold
      ({ handle := some h }, { r with registry })
  | .create site threshold =>
      let (h, registry) := r.registry.create site threshold
      ({ handle := some h }, { r with registry })
  | .track h name type value stable =>
      match r.registry.get? h with
      | none => ({}, r)
      | some t => ({}, { r with registry := r.registry.set h (t.track name type value stable) })
  | .flush h =>
      match r.registry.get? h with
      | none => ({}, r)
      | some t =>
          let (event, t) := t.flush
          ({ delivered := r.publish event }, { r with registry := r.registry.set h t })
  | .enable on => ({}, { r with enabled := on })
  | .useLogger logger => ({}, { r with logger })

end Recorder

end ComposeStability.Tracing
