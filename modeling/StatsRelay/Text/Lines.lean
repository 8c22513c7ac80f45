/-! Cutting octets into lines. Each line but perhaps the last ends with its newline octet. -/
namespace StatsRelay.Text.Lines

def newline : UInt8 := 10

def next : List UInt8 → List UInt8 × List UInt8
  | [] => ([], [])
  | octet :: rest =>
    if octet = newline then ([octet], rest)
    else
      let (line, rest) := next rest
      (octet :: line, rest)

def split : List UInt8 → List (List UInt8)
  | [] => []
  | octet :: rest =>
    if octet = newline then [octet] :: split rest
    else match split rest with
      | [] => [[octet]]
      | line :: lines => (octet :: line) :: lines

def finished (bytes : List UInt8) : List UInt8 :=
  ((split bytes).filter fun line => line.getLast? == some newline).flatten

end StatsRelay.Text.Lines
