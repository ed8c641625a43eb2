import PromptRelay.LineBuffer
import PromptRelay.StopNotice

namespace PromptRelay

structure StopScanner where
  buffer : LineBuffer
  isOpen : Bool
  deriving DecidableEq, Repr

namespace StopScanner

def start : StopScanner := ⟨.empty, true⟩

/-- Complete lines kept while no banner is seen. -/
def maxLines : Nat := 1024

/-- One chunk: when it ends in a banner, everything kept so far is the notice; the blank line
that ends the banner is not part of it. -/
def read (s : StopScanner) (chunk : List UInt8) : StopScanner × Option StopNotice :=
  if !s.isOpen then (s, none)
  else
    let buffer := s.buffer.push chunk
    if endsInBanner buffer.view then
      let (view, buffer) := buffer.take
      ({ s with buffer }, some (.ofLines view.dropLast))
    else ({ s with buffer := buffer.keepLast maxLines }, none)

def readAll (s : StopScanner) : List (List UInt8) → StopScanner × List StopNotice
  | [] => (s, [])
  | chunk :: rest =>
    let (s, notice) := s.read chunk
    let (s, notices) := s.readAll rest
    (s, notice.toList ++ notices)

def close (s : StopScanner) : StopScanner := { s with isOpen := false }

end StopScanner

end PromptRelay
