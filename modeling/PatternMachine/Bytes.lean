/-!
# Byte arrays

Texts, literals and templates are arrays of bytes.  Libraries bring procedures of their own that
decide whether two of them are the same; here it is always the one that comes with the arrays.
-/

namespace PatternMachine

instance decidableEqByteArray : DecidableEq ByteArray :=
  ByteArray.instDecidableEq

end PatternMachine
