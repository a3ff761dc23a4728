/-!
# Short identifiers

Long hashes and addresses are shown by their first and last six characters.
-/

namespace FrameScope.Text

/-- Characters kept at each end, a leading `0x` not counted. -/
def shortEdge : Nat := 6

/-- Keeps both ends of a long ASCII identifier; any other text stays as it is. -/
def shortId (id : String) : String :=
  let cs := id.toList
  let lead := if ['0', 'x'].isPrefixOf cs then 2 else 0
  if cs.any (fun c => 0x80 ≤ c.toNat) || cs.length ≤ lead + 2 * shortEdge + 1 then id
  else String.ofList (cs.take (lead + shortEdge) ++ '…' :: cs.drop (cs.length - shortEdge))

end FrameScope.Text
