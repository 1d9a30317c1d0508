import GitE2EE.Model.LocalGit

/-!
# A Git to try things with

What the model asks of the `git` commands can be had: an ancestry test that looks at the whole
object database answers as it says. The other commands are free to answer anything; here they
succeed, a walk misses nothing and a pack is empty.
-/

namespace GitE2EE

open Classical in
/-- A Git that misses nothing and packs nothing. -/
noncomputable def idealGit : GitTool where
  isAncestor db _ old next := some (decide (db.Descends old next))
  revList _ _ _ _ := some false
  lsTree _ _ := some []
  packObjects _ _ _ := some []
  indexPack _ := some []
  isAncestor_sound h := of_decide_eq_true (Option.some.inj h)

end GitE2EE
