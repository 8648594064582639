/-! Words: the whole numbers of at most 64 bits, in which volumes and admission numbers are
counted. -/
namespace LimitBook

abbrev Word := { number : Nat // number < 0x1_0000_0000_0000_0000 }

namespace Word

theorem fits (word : Word) : word.val < 0x1_0000_0000_0000_0000 := word.property

theorem zero_fits : 0 < 0x1_0000_0000_0000_0000 := by decide

theorem one_fits : 1 < 0x1_0000_0000_0000_0000 := by decide

theorem greatest_fits : 0xffff_ffff_ffff_ffff < 0x1_0000_0000_0000_0000 := by decide

theorem mod_fits (number : Nat) : number % 0x1_0000_0000_0000_0000 < 0x1_0000_0000_0000_0000 :=
  Nat.mod_lt _ zero_fits

def ofNat? (number : Nat) : Option Word :=
  if fits : number < 0x1_0000_0000_0000_0000 then some ⟨number, fits⟩ else none

end Word
end LimitBook
