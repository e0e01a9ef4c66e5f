import UniRtos.Lib.CBlock

/-!
The texts that the FTP demos have in common.
-/

namespace UniRtos.Ftp

def serverFilename : CString := CString.literal "ftp_test1.txt" (by decide) (by decide)

def scheme : CString := CString.literal "ftp://" (by decide) (by decide)

def slashChar : UInt8 := 47

def slash : CString := ⟨⟨[slashChar], Nat.lt_of_sub_pos (by decide)⟩, by decide⟩

end UniRtos.Ftp
