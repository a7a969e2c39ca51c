/-! # Platform types

The types of the platform library that a source may name without declaring them.
-/

namespace BeanClass

/-- The simple names of the platform types, by package. -/
def platformPackages : List (String × List String) :=
  [("java.lang",
     ["Appendable", "ArithmeticException", "ArrayIndexOutOfBoundsException", "AssertionError",
      "AutoCloseable", "Boolean", "Byte", "CharSequence", "Character", "Class",
      "ClassCastException", "ClassLoader", "ClassNotFoundException",
      "CloneNotSupportedException", "Cloneable", "Comparable", "Double", "Enum", "Error",
      "Exception", "Float", "IllegalArgumentException", "IllegalStateException",
      "IndexOutOfBoundsException", "Integer", "InterruptedException", "Iterable", "Long", "Math",
      "NullPointerException", "Number", "NumberFormatException", "Object", "Package", "Process",
      "Readable", "Runnable", "Runtime", "RuntimeException", "SecurityException", "Short",
      "StackTraceElement", "String", "StringBuffer", "StringBuilder", "System", "Thread",
      "ThreadLocal", "Throwable", "UnsupportedOperationException", "Void"]),
   ("java.io",
     ["BufferedReader", "BufferedWriter", "Closeable", "File", "IOException", "InputStream",
      "OutputStream", "PrintStream", "Reader", "Serializable", "Writer"]),
   ("java.math",
     ["BigDecimal", "BigInteger"]),
   ("java.net",
     ["InetAddress", "URI", "URL"]),
   ("java.nio",
     ["ByteBuffer"]),
   ("java.nio.charset",
     ["Charset"]),
   ("java.nio.file",
     ["Path", "Paths"]),
   ("java.sql",
     ["Date", "Timestamp"]),
   ("java.time",
     ["Duration", "Instant", "LocalDate", "LocalDateTime", "LocalTime", "ZonedDateTime"]),
   ("java.util",
     ["AbstractList", "AbstractMap", "ArrayDeque", "ArrayList", "Arrays", "BitSet", "Calendar",
      "Collection", "Collections", "Comparator", "Currency", "Date", "Deque", "EnumMap",
      "EnumSet", "HashMap", "HashSet", "Iterator", "LinkedHashMap", "LinkedHashSet",
      "LinkedList", "List", "Locale", "Map", "NavigableMap", "NavigableSet", "Optional",
      "PriorityQueue", "Properties", "Queue", "Random", "Set", "SortedMap", "SortedSet", "Stack",
      "TimeZone", "TreeMap", "TreeSet", "UUID", "Vector"]),
   ("java.util.concurrent",
     ["BlockingQueue", "Callable", "ConcurrentHashMap", "ConcurrentMap", "CopyOnWriteArrayList",
      "ExecutorService", "Future", "TimeUnit"]),
   ("java.util.concurrent.atomic",
     ["AtomicBoolean", "AtomicInteger", "AtomicLong", "AtomicReference"]),
   ("java.util.function",
     ["BiFunction", "Consumer", "Function", "Predicate", "Supplier"]),
   ("java.util.regex",
     ["Matcher", "Pattern"])]

def platformTypes : List String :=
  platformPackages.flatMap fun (package, names) => names.map (package ++ "." ++ ·)

end BeanClass
