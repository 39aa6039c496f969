/-!
Which powers and sums are meant.

A power of numbers is repeated multiplication as the core library has it, and a sum starts from the
numeral zero. Where other instances are in scope these still come first, so that a formula means the
same in every module. A power whose exponent is a numeral has its type written out for that reason.
-/

attribute [instance (2000)] instPowNat instNatPowNat Int.instNatPow Zero.ofOfNat0
