/-!
# Powers of two and of ten

* `twoTo`   a power of two
* `tenTo`   a power of ten
-/

namespace MarkdownModule

def twoTo (k : Nat) : Nat := Nat.pow 2 k

def tenTo (k : Nat) : Nat := Nat.pow 10 k

end MarkdownModule
