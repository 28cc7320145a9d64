/-!
# Powers

Powers with a written exponent are those of the core library in every module, also where an algebra
library is imported in which every monoid has powers of its own.
-/

attribute [default_instance 20000] instPowNat
