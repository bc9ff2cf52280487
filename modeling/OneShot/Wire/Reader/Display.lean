import OneShot.Wire.Reader

/-!
# The reader in full

The full text of a reader shows its whole state, the octets left in the
cells by earlier frames included.
-/

namespace OneShot.Wire

open Text

def Phase.display : Phase → String
  | header => "Header"
  | update h => applied "WindowUpdate" h.display
  | skip h remaining =>
      braced "Skip" [("header", h.display), ("remaining", toString remaining)]
  | failed => "Failed"

def showOctets (cells : List UInt8) : String := bracketed (cells.map toString)

/-- The full text of a reader that gives its notices to `listener`. -/
def Reader.display (r : Reader) (listener : String) : String :=
  braced "H2FrameParser"
    [("listener", listener),
      ("config", braced "ParserConfig" [("max_frame_size", toString r.maxFrameSize)]),
      ("state", r.phase.display),
      ("header", showOctets r.headerCells),
      ("body", showOctets r.deltaCells),
      ("filled", toString r.filled)]

end OneShot.Wire
