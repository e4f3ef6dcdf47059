import Apcupsd.Foundations.BitFlags

/-!
# The UPS status word

The bit values of {lit}`ups->Status` from {lit}`include/defines.h` and the split
of the word between the core and the drivers.

Main results:

- Theorem {lit}`testMask_xor_upsOnbatt` and its companions: a change test on two
  words is the disagreement of the two flags.
- Theorem {lit}`coreBits_subset_local`: the bits that only the core writes are
  local bits, so a driver that honours {lit}`UPS_LOCAL_BITS` preserves them.
-/

namespace Apcupsd

open BitFlags

/-- {lit}`ups->Status`: a bitmapped {lit}`int32_t`. -/
abbrev StatusWord := BitVec 32

/-! ## Bits of the APC status byte -/

def upsCalibration : StatusWord := 0x00000001
def upsTrim : StatusWord := 0x00000002
def upsBoost : StatusWord := 0x00000004
def upsOnline : StatusWord := 0x00000008
def upsOnbatt : StatusWord := 0x00000010
def upsOverload : StatusWord := 0x00000020
def upsBattlow : StatusWord := 0x00000040
def upsReplacebatt : StatusWord := 0x00000080

/-! ## Extended bits added by apcupsd -/

/-- Communications with UPS lost. -/
def upsCommlost : StatusWord := 0x00000100
/-- Shutdown in progress. -/
def upsShutdown : StatusWord := 0x00000200
/-- Set if this is a slave. -/
def upsSlave : StatusWord := 0x00000400
/-- Slave not responding. -/
def upsSlavedown : StatusWord := 0x00000800
/-- Set when the on-battery message is sent. -/
def upsOnbattMsg : StatusWord := 0x00020000
/-- Set on power failure to poll faster. -/
def upsFastpoll : StatusWord := 0x00040000
/-- Set when the battery charge is at most {lit}`percent`. -/
def upsShutLoad : StatusWord := 0x00080000
/-- Set when the time on batteries exceeds {lit}`maxtime`. -/
def upsShutBtime : StatusWord := 0x00100000
/-- Set when the time left is at most {lit}`runtime`. -/
def upsShutLtime : StatusWord := 0x00200000
/-- Set when battery power has failed. -/
def upsShutEmerg : StatusWord := 0x00400000
/-- Set when remote shutdown. -/
def upsShutRemote : StatusWord := 0x00800000
/-- Set if computer is plugged into UPS. -/
def upsPlugged : StatusWord := 0x01000000
/-- Indicates if battery is connected. -/
def upsBattpresent : StatusWord := 0x04000000

/-- {lit}`UPS_LOCAL_BITS`. -/
def upsLocalBits : StatusWord :=
  upsCommlost ||| upsShutdown ||| upsSlave ||| upsSlavedown |||
    upsOnbattMsg ||| upsFastpoll ||| upsPlugged |||
    upsShutLoad ||| upsShutBtime ||| upsShutLtime ||| upsShutEmerg

/-- The local bits that no driver writes: the core's own memory of what it has
announced, which limits it has seen and whether it is shutting down.  The other
local bits are also written by drivers ({lit}`commlost` by all of them,
{lit}`fastpoll` by the network slave). -/
def coreBits : StatusWord :=
  upsShutdown ||| upsOnbattMsg ||| upsShutLoad ||| upsShutBtime |||
    upsShutLtime ||| upsShutEmerg

/-- A driver that keeps the local bits keeps what the core has in the word. -/
theorem coreBits_subset_local : coreBits &&& upsLocalBits = coreBits := by
  decide

/-! ## Changes between two words -/

theorem testMask_xor_upsOnbatt (left right : StatusWord) :
    testMask (left ^^^ right) upsOnbatt =
      (testMask left upsOnbatt ^^ testMask right upsOnbatt) :=
  testMask_xor_twoPow (show 4 < 32 by decide) left right

theorem testMask_xor_upsBattlow (left right : StatusWord) :
    testMask (left ^^^ right) upsBattlow =
      (testMask left upsBattlow ^^ testMask right upsBattlow) :=
  testMask_xor_twoPow (show 6 < 32 by decide) left right

theorem testMask_xor_upsShutRemote (left right : StatusWord) :
    testMask (left ^^^ right) upsShutRemote =
      (testMask left upsShutRemote ^^ testMask right upsShutRemote) :=
  testMask_xor_twoPow (show 23 < 32 by decide) left right

end Apcupsd
