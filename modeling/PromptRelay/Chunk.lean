namespace PromptRelay

def readSize : Nat := 8192

theorem readSize_pos : 0 < readSize := by decide

/-- Bytes as they are read: pieces of the read size, the last one as long as what remains. -/
def chunks (bytes : List UInt8) : List (List UInt8) :=
  if _empty : bytes = [] then []
  else bytes.take readSize :: chunks (bytes.drop readSize)
termination_by bytes.length
decreasing_by
  have nonempty := List.length_pos_iff.mpr ‹¬bytes = []›
  have positive := readSize_pos
  simp only [List.length_drop]
  omega

end PromptRelay
