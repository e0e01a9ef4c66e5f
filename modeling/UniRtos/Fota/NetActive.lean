/-!
Network activation, which the FTP and the HTTP firmware demos share up to the
name of their error constant.
-/

namespace UniRtos

inductive DatacallErrno
  | ok
  | errNoActive
  | other
  deriving DecidableEq, Repr

structure Datacall where
  getIpInfo : DatacallErrno
  start : DatacallErrno

def uniFotaSuccess : Int := 0

def netActive (errorUnknown : Int) (datacall : Datacall) : Int :=
  match datacall.getIpInfo with
  | .errNoActive => if datacall.start ≠ .ok then errorUnknown else uniFotaSuccess
  | .ok => uniFotaSuccess
  | .other => errorUnknown

end UniRtos
