namespace FileBroker.Errno

abbrev Code := Int32

abbrev perm        : Code := 1
abbrev noent       : Code := 2
abbrev io          : Code := 5
abbrev nxio        : Code := 6
abbrev noexec      : Code := 8
abbrev badf        : Code := 9
abbrev again       : Code := 11
abbrev acces       : Code := 13
abbrev busy        : Code := 16
abbrev exist       : Code := 17
abbrev notdir      : Code := 20
abbrev isdir       : Code := 21
abbrev inval       : Code := 22
abbrev mfile       : Code := 24
abbrev pipe        : Code := 32
abbrev nametoolong : Code := 36
abbrev notempty    : Code := 39
abbrev loop        : Code := 40
abbrev connreset   : Code := 104
abbrev connrefused : Code := 111

-- The texts that travel in replies.
def descriptions : List (Int × String) := [
  (1, "Operation not permitted"),
  (2, "No such file or directory"),
  (3, "No such process"),
  (4, "Interrupted system call"),
  (5, "I/O error"),
  (6, "No such device or address"),
  (7, "Argument list too long"),
  (8, "Exec format error"),
  (9, "Bad file number"),
  (10, "No child processes"),
  (11, "Try again"),
  (12, "Out of memory"),
  (13, "Permission denied"),
  (14, "Bad address"),
  (15, "Block device required"),
  (16, "Device or resource busy"),
  (17, "File exists"),
  (18, "Cross-device link"),
  (19, "No such device"),
  (20, "Not a directory"),
  (21, "Is a directory"),
  (22, "Invalid argument"),
  (23, "File table overflow"),
  (24, "Too many open files"),
  (25, "Not a typewriter"),
  (26, "Text file busy"),
  (27, "File too large"),
  (28, "No space left on device"),
  (29, "Illegal seek"),
  (30, "Read-only file system"),
  (31, "Too many links"),
  (32, "Broken pipe"),
  (33, "Math argument out of domain of func"),
  (34, "Math result not representable"),
  (35, "Resource deadlock would occur"),
  (36, "File name too long"),
  (37, "No record locks available"),
  (38, "Function not implemented"),
  (39, "Directory not empty"),
  (40, "Too many symbolic links encountered"),
  (42, "No message of desired type"),
  (43, "Identifier removed"),
  (44, "Channel number out of range"),
  (45, "Level 2 not synchronized"),
  (46, "Level 3 halted"),
  (47, "Level 3 reset"),
  (48, "Link number out of range"),
  (49, "Protocol driver not attached"),
  (50, "No CSI structure available"),
  (51, "Level 2 halted"),
  (52, "Invalid exchange"),
  (53, "Invalid request descriptor"),
  (54, "Exchange full"),
  (55, "No anode"),
  (56, "Invalid request code"),
  (57, "Invalid slot"),
  (59, "Bad font file format"),
  (60, "Device not a stream"),
  (61, "No data available"),
  (62, "Timer expired"),
  (63, "Out of streams resources"),
  (64, "Machine is not on the network"),
  (65, "Package not installed"),
  (66, "Object is remote"),
  (67, "Link has been severed"),
  (68, "Advertise error"),
  (69, "Srmount error"),
  (70, "Communication error on send"),
  (71, "Protocol error"),
  (72, "Multihop attempted"),
  (73, "RFS specific error"),
  (74, "Not a data message"),
  (75, "Value too large for defined data type"),
  (76, "Name not unique on network"),
  (77, "File descriptor in bad state"),
  (78, "Remote address changed"),
  (79, "Can not access a needed shared library"),
  (80, "Accessing a corrupted shared library"),
  (81, ".lib section in a.out corrupted"),
  (82, "Attempting to link in too many shared libraries"),
  (83, "Cannot exec a shared library directly"),
  (84, "Illegal byte sequence"),
  (85, "Interrupted system call should be restarted"),
  (86, "Streams pipe error"),
  (87, "Too many users"),
  (88, "Socket operation on non-socket"),
  (89, "Destination address required"),
  (90, "Message too long"),
  (91, "Protocol wrong type for socket"),
  (92, "Protocol not available"),
  (93, "Protocol not supported"),
  (94, "Socket type not supported"),
  (95, "Operation not supported on transport endpoint"),
  (96, "Protocol family not supported"),
  (97, "Address family not supported by protocol"),
  (98, "Address already in use"),
  (99, "Cannot assign requested address"),
  (100, "Network is down"),
  (101, "Network is unreachable"),
  (102, "Network dropped connection because of reset"),
  (103, "Software caused connection abort"),
  (104, "Connection reset by peer"),
  (105, "No buffer space available"),
  (106, "Transport endpoint is already connected"),
  (107, "Transport endpoint is not connected"),
  (108, "Cannot send after transport endpoint shutdown"),
  (109, "Too many references: cannot splice"),
  (110, "Connection timed out"),
  (111, "Connection refused"),
  (112, "Host is down"),
  (113, "No route to host"),
  (114, "Operation already in progress"),
  (115, "Operation now in progress"),
  (116, "Stale file handle"),
  (117, "Structure needs cleaning"),
  (118, "Not a XENIX named type file"),
  (119, "No XENIX semaphores available"),
  (120, "Is a named type file"),
  (121, "Remote I/O error"),
  (122, "Quota exceeded"),
  (123, "No medium found"),
  (124, "Wrong medium type"),
  (125, "Operation canceled"),
  (126, "Required key not available"),
  (127, "Key has expired"),
  (128, "Key has been revoked"),
  (129, "Key was rejected by service"),
  (130, "Owner died"),
  (131, "State not recoverable"),
  (132, "Operation not possible due to RF-kill"),
  (133, "Memory page has hardware error")]

-- The texts of failed system calls. Only those that differ from the list above are given.
def systemTexts : List (Int × String) := [
  (0, "Success"),
  (5, "Input/output error"),
  (9, "Bad file descriptor"),
  (11, "Resource temporarily unavailable"),
  (12, "Cannot allocate memory"),
  (18, "Invalid cross-device link"),
  (23, "Too many open files in system"),
  (25, "Inappropriate ioctl for device"),
  (33, "Numerical argument out of domain"),
  (34, "Numerical result out of range"),
  (35, "Resource deadlock avoided"),
  (37, "No locks available"),
  (40, "Too many levels of symbolic links"),
  (74, "Bad message"),
  (84, "Invalid or incomplete multibyte or wide character"),
  (95, "Operation not supported"),
  (102, "Network dropped connection on reset"),
  (122, "Disk quota exceeded")]

def describe (code : Code) : String :=
  (descriptions.lookup code.toInt).getD "Unknown errno"

def systemText (code : Code) : String :=
  match systemTexts.lookup code.toInt with
  | some text => text
  | none =>
    match descriptions.lookup code.toInt with
    | some text => text
    | none => "Unknown error " ++ toString code.toInt

-- What a failure amounts to, whichever number reports it.
inductive Kind
  | addressInUse | addressNotAvailable | alreadyExists | argumentListTooLong | brokenPipe
  | connectionAborted | connectionRefused | connectionReset | crossesDevices | deadlock
  | directoryNotEmpty | executableFileBusy | fileTooLarge | filesystemLoop | hostUnreachable
  | inProgress | interrupted | invalidFilename | invalidInput | isADirectory | networkDown
  | networkUnreachable | notADirectory | notConnected | notFound | notSeekable | other
  | outOfMemory | permissionDenied | quotaExceeded | readOnlyFilesystem | resourceBusy
  | staleNetworkFileHandle | storageFull | timedOut | tooManyLinks | uncategorized
  | unexpectedEnd | unsupported | wouldBlock
  deriving DecidableEq, Repr

def kinds : List (Int × Kind) := [
  (1, .permissionDenied), (2, .notFound), (4, .interrupted), (7, .argumentListTooLong),
  (11, .wouldBlock), (12, .outOfMemory), (13, .permissionDenied), (16, .resourceBusy),
  (17, .alreadyExists), (18, .crossesDevices), (20, .notADirectory), (21, .isADirectory),
  (22, .invalidInput), (26, .executableFileBusy), (27, .fileTooLarge), (28, .storageFull),
  (29, .notSeekable), (30, .readOnlyFilesystem), (31, .tooManyLinks), (32, .brokenPipe),
  (35, .deadlock), (36, .invalidFilename), (38, .unsupported), (39, .directoryNotEmpty),
  (40, .filesystemLoop), (95, .unsupported), (98, .addressInUse), (99, .addressNotAvailable),
  (100, .networkDown), (101, .networkUnreachable), (103, .connectionAborted),
  (104, .connectionReset), (107, .notConnected), (110, .timedOut), (111, .connectionRefused),
  (113, .hostUnreachable), (115, .inProgress), (116, .staleNetworkFileHandle),
  (122, .quotaExceeded)]

def kind (code : Code) : Kind :=
  (kinds.lookup code.toInt).getD .uncategorized

end FileBroker.Errno
