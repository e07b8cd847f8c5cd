import ProbeCoverage.Decimal.Print

/-!
Counters of an instrumented file. Probes count in a global array with one row per file; the
allocator of a file hands out node numbers and counter slots of its row, and writes the statements
that count and that prepare the row.
-/

namespace ProbeCoverage.Probe

def defaultGlobal : String := "$_dc_cov"

structure Allocator where
  global : String
  fileIndex : Nat
  nextSlot : Nat
  nextNumber : Nat
  deriving DecidableEq, Repr

namespace Allocator

def fresh (global : String) (fileIndex : Nat) : Allocator :=
  { global, fileIndex, nextSlot := 0, nextNumber := 0 }

def reserve (allocator : Allocator) (count : Nat) : Allocator :=
  { allocator with nextSlot := allocator.nextSlot + count }

def skipNumber (allocator : Allocator) : Allocator :=
  { allocator with nextNumber := allocator.nextNumber + 1 }

def counter (allocator : Allocator) (slot : Nat) : String :=
  allocator.global ++ "[" ++ Decimal.natText allocator.fileIndex ++ "][" ++
    Decimal.natText slot ++ "]"

def probe (allocator : Allocator) (slot : Nat) : String :=
  allocator.counter slot ++ "+=1"

def setup (allocator : Allocator) : String :=
  "(" ++ allocator.global ++ "||=[])[" ++ Decimal.natText allocator.fileIndex ++
    "]||=Array.new(" ++ Decimal.natText allocator.nextSlot ++ ",0)"

end Allocator

end ProbeCoverage.Probe
