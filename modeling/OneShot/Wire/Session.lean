import OneShot.Wire.Reader.Display

/-!
# Recorded sessions

A reader together with a listener that writes down what it is told: every
notice, or the window updates alone.
-/

namespace OneShot.Wire

inductive Listener
  | everything
  | updates
  deriving DecidableEq

namespace Listener

def hears : Listener → Notice → Bool
  | everything, _ => true
  | updates, .windowUpdate _ => true
  | updates, _ => false

def display (l : Listener) (heard : List Notice) : String :=
  match l with
  | everything => "Events"
  | updates => Text.bracketed <| heard.filterMap fun
      | .windowUpdate u => some u.display
      | _ => none

end Listener

/-- How the octets of one feed are cut. -/
inductive Cut
  | whole
  | every (size : Nat)
  | bySizes (sizes : List Nat)

/-- Slices of `size` octets, the last one shorter; none of no octets. -/
def chop (size : Nat) (data : List UInt8) : List (List UInt8) :=
  match data with
  | [] => []
  | octet :: more =>
      if _ : 0 < size then
        (octet :: more).take size :: chop size ((octet :: more).drop size)
      else []
termination_by data.length
decreasing_by simp only [List.length_drop, List.length_cons]; omega

/-- A slice of each size as far as there are octets, then the rest. -/
def carve : List Nat → List UInt8 → List (List UInt8)
  | [], data => [data]
  | n :: sizes, data => data.take n :: carve sizes (data.drop n)

def Cut.slices : Cut → List UInt8 → List (List UInt8)
  | whole, data => [data]
  | every size, data => chop size data
  | bySizes sizes, data => carve sizes data

inductive Request
  | feed (data : List UInt8) (cut : Cut)
  | reset
  | clear
  | describe

inductive Reply
  | counts (taken : List Nat)
  | nothing
  | text (s : String)

/-- The answer to one request, what the listener wrote down meanwhile, and
whether the reader stands failed after it. -/
structure Entry where
  reply : Reply
  heard : List Notice
  failed : Bool

structure Session where
  listener : Listener
  reader : Reader
  heard : List Notice := []

namespace Session

def handle (s : Session) : Request → Entry × Session
  | .feed data cut =>
      let (reader, notices, counts) := s.reader.feedAll (cut.slices data)
      let notices := notices.filter s.listener.hears
      (⟨.counts counts, notices, reader.isFailed⟩,
        { s with reader, heard := s.heard ++ notices })
  | .reset =>
      let reader := s.reader.reset
      (⟨.nothing, [], reader.isFailed⟩, { s with reader })
  | .clear => (⟨.nothing, [], s.reader.isFailed⟩, { s with heard := [] })
  | .describe =>
      (⟨.text (s.reader.display (s.listener.display s.heard)), [], s.reader.isFailed⟩, s)

def handleAll (s : Session) : List Request → List Entry × Session
  | [] => ([], s)
  | request :: requests =>
      let (entry, s) := s.handle request
      let (entries, s) := s.handleAll requests
      (entry :: entries, s)

end Session

end OneShot.Wire
