import FileSharing.Database.Schema

/-! The records that `partition.h` defines for the partitions of the shared blocks. -/

namespace FileSharing

structure CapacityInfo where
  capacity : Int
  ipaddress : Text
  deriving DecidableEq, Repr

structure ReceiversMessage where
  fd : Int
  ipaddr : Int
  status : Int
  deriving DecidableEq, Repr

/-- `data1` is the descriptor and `data2` the number of bytes. -/
structure NewmsgData where
  data1 : Int
  data2 : Nat
  data : Bytea
  deriving DecidableEq, Repr

structure OpenConnection where
  port : Int
  ipaddress : Int
  scommid : Nat
  deriving DecidableEq, Repr

structure CloseConnection where
  fd : Int
  ipaddress : Int
  scommid : Nat
  deriving DecidableEq, Repr

structure ConnectionStatus where
  fd : Int
  ipaddress : Int
  scommid : Nat
  deriving DecidableEq, Repr

structure SendMessage where
  size : Nat
  fd : Int
  uuid : Uuid
  data : Bytea
  deriving DecidableEq

structure MessageStatus where
  status : Int
  uuid : Uuid
  deriving DecidableEq

/-- The comms block of the receiver: capacities in the lower half, connections in the upper. -/
inductive ReceiverComm where
  | capacity (info : CapacityInfo)
  | connection (message : ReceiversMessage)
  deriving DecidableEq, Repr

/-- The comms block of the sender, by the `type` field: commands in the lower half (1, 2),
statuses in the upper (3, 4). -/
inductive SenderComm where
  | openConn (command : OpenConnection)
  | closeConn (command : CloseConnection)
  | connection (status : ConnectionStatus)
  | message (status : MessageStatus)
  deriving DecidableEq

end FileSharing
