import LamTo.Model.Services

/-!
# The consistency check of buildings

The embedding of `tenant_integrity`: each check selects the rows whose building is not the one a
row they refer to is in, and the command fails when one of them selects anything.

* A comparison of columns is unknown when one of them is null, and a check selects the rows of
  which its condition is known to be false.
* `exclude` adds that a nullable column on either side is not null: only the case of a published
  entry and the case of its proposal are.
* Three of the checks are left out: they compare columns of reports and of their photos that the
  database of the services does not have.

SOURCE: src/lamto/accounts/management/commands/tenant_integrity.py
-/

set_option autoImplicit false

namespace LamTo.Model

open LamTo.Library

/-! ## Comparisons -/

namespace Db

end Db

/-! ## The checks -/

end LamTo.Model
